import Geck.MemoryHandlers

/-!
# What every update of a page fault keeps

A fault changes the memory in small updates: fields of a row, a page of main
memory or of swap, a bit of the bitmap of main memory. A relation that each of
them keeps is kept by the clocks and by the loading of a page, however the fault
ends, and with no promise about the state.
-/

set_option autoImplicit false

namespace Geck.UpdateRules
open Geck.BlockStore Geck.SharedPcb Geck.MemoryState Geck.MemoryPaging Geck.MemoryHandlers

/-- The relation holds between a memory and each of its updates. -/
structure KeptByUpdates (P : Memory → Memory → Prop) : Prop where
  refl : ∀ m, P m m
  trans : ∀ {a b c}, P a b → P b c → P a c
  row : ∀ m r f, (∀ x : PageTableRow, (f x).swapPosition = x.swapPosition) → P m (modifyRow m r f)
  ram : ∀ m ram, P m { m with principalMemory := ram }
  swapFile : ∀ m swap, P m { m with swapFile := swap }
  memoryBits : ∀ m bits, bits.length = m.bitmapMemory.length → P m { m with bitmapMemory := bits }

section Clocks
variable {P : Memory → Memory → Prop} (hP : KeptByUpdates P) {cfg : MemoryConfig} {m m' : Memory}
include hP

theorem replace_by_clock_kept {page : PageRef} (h : replaceByClock cfg m page = some m') : P m m' := by
  have hgone : ∀ (saved : Memory) (frame : ℤ), P m saved →
      ((writeBit (modifyRow saved page fun r => { r with presence := false }).bitmapMemory
        frame false).bind fun bitmap => some { modifyRow saved page fun r =>
          { r with presence := false } with bitmapMemory := bitmap }) = some m' → P m m' := by
    intro saved frame hsaved h
    obtain ⟨bitmap, hbitmap, h⟩ := Option.bind_eq_some_iff.mp h
    obtain rfl := Option.some.inj h
    have hrow := hP.row saved page (fun r => { r with presence := false }) fun _ => rfl
    exact hP.trans (hP.trans hsaved hrow) (hP.memoryBits _ bitmap (write_bit_length hbitmap))
  simp only [replaceByClock, Option.bind_eq_bind, Option.bind_eq_some_iff] at h
  obtain ⟨victim, -, h⟩ := h
  split at h
  · simp only [Option.bind_eq_some_iff] at h
    obtain ⟨value, -, written, hwritten, saved, hsaved, h⟩ := h
    obtain rfl := Option.some.inj hsaved
    simp only [writePageSwap, Option.ite_none_right_eq_some, Option.some.injEq] at hwritten
    obtain ⟨-, rfl⟩ := hwritten
    refine hgone _ victim.frameNumber ?_ (Option.bind_eq_some_iff.mpr h)
    exact hP.trans (hP.swapFile m _) (hP.row _ page _ fun _ => rfl)
  · exact hgone m victim.frameNumber (hP.refl m) h

theorem clear_use_kept (m : Memory) (page : PageRef) : P m (clearUse m page) :=
  hP.row m page _ fun _ => rfl

theorem simple_clock_loop_kept {rows : List ClockRow} (fuel : ℕ) {clockPointer next : ℕ} {frame : ℤ}
    (h : simpleClockLoop cfg rows fuel m clockPointer = some (m', next, frame)) :
    P m m' ∧ frame ∈ rows.map ClockRow.frameNumberInMemory := by
  induction fuel generalizing m clockPointer with
  | zero => simp [simpleClockLoop] at h
  | succ fuel ih =>
    simp only [simpleClockLoop, Option.bind_eq_bind, Option.bind_eq_some_iff] at h
    obtain ⟨clockRow, hrow, page, -, h⟩ := h
    split at h
    · obtain ⟨replaced, hreplaced, h⟩ := Option.bind_eq_some_iff.mp h
      simp only [Option.some.injEq, Prod.mk.injEq] at h
      obtain ⟨rfl, -, rfl⟩ := h
      exact ⟨replace_by_clock_kept hP hreplaced, List.mem_map_of_mem (List.mem_of_getElem? hrow)⟩
    · obtain ⟨hkept, hmem⟩ := ih h
      exact ⟨hP.trans (clear_use_kept hP m clockRow.page) hkept, hmem⟩

theorem modified_clock_loop_kept {rows : List ClockRow} {start : ℕ} (fuel : ℕ) {pass : ClockPass}
    {clockPointer next : ℕ} {frame : ℤ}
    (h : modifiedClockLoop cfg rows start fuel pass m clockPointer = some (m', next, frame)) :
    P m m' ∧ frame ∈ rows.map ClockRow.frameNumberInMemory := by
  induction fuel generalizing pass m clockPointer with
  | zero => simp [modifiedClockLoop] at h
  | succ fuel ih =>
    simp only [modifiedClockLoop, Option.bind_eq_bind, Option.bind_eq_some_iff] at h
    obtain ⟨clockRow, hrow, page, -, h⟩ := h
    split at h
    · obtain ⟨replaced, hreplaced, h⟩ := Option.bind_eq_some_iff.mp h
      simp only [Option.some.injEq, Prod.mk.injEq] at h
      obtain ⟨rfl, -, rfl⟩ := h
      exact ⟨replace_by_clock_kept hP hreplaced, List.mem_map_of_mem (List.mem_of_getElem? hrow)⟩
    · cases pass with
      | first => exact ih h
      | second =>
        obtain ⟨hkept, hmem⟩ := ih h
        exact ⟨hP.trans (clear_use_kept hP m clockRow.page) hkept, hmem⟩

/-- A replacement moves the pointer of the clock and takes the frame of one of its rows. -/
theorem replacement_kept {pid frame : ℤ} (hknown : cfg.algoritmoReemplazo ≠ .other)
    (h : useReplacementAlgorithm cfg m pid = some (m', frame)) :
    ∃ c p turned, m.clockStructures pid = some c ∧ P m turned ∧
      m' = setStructClock turned pid { c with pointer := p } ∧
      frame ∈ c.framesInMemory.map ClockRow.frameNumberInMemory := by
  unfold useReplacementAlgorithm at h
  split at h
  · simp only [modifiedClock, Option.bind_eq_bind, Option.bind_eq_some_iff] at h
    obtain ⟨clock, hclock, ⟨turned, next, victim⟩, hloop, h⟩ := h
    simp only [Option.some.injEq, Prod.mk.injEq] at h
    obtain ⟨rfl, rfl⟩ := h
    obtain ⟨hkept, hmem⟩ := modified_clock_loop_kept hP _ hloop
    exact ⟨clock, next, turned, hclock, hkept, rfl, hmem⟩
  · simp only [simpleClock, Option.bind_eq_bind, Option.bind_eq_some_iff] at h
    obtain ⟨clock, hclock, ⟨turned, next, victim⟩, hloop, h⟩ := h
    simp only [Option.some.injEq, Prod.mk.injEq] at h
    obtain ⟨rfl, rfl⟩ := h
    obtain ⟨hkept, hmem⟩ := simple_clock_loop_kept hP _ hloop
    exact ⟨clock, next, turned, hclock, hkept, rfl, hmem⟩
  · next hother => exact absurd hother hknown

end Clocks

section Faults
variable {P : Memory → Memory → Prop} (hP : KeptByUpdates P)
  (hclock : ∀ m pid c, P m (setStructClock m pid c)) {cfg : MemoryConfig} {m m' : Memory}
include hP hclock

theorem choose_frame_kept {pid frame : ℤ} (h : chooseFrame cfg m pid = some (m', frame)) : P m m' := by
  obtain ⟨_, -, ⟨-, h⟩ | ⟨-, -, rfl⟩⟩ := choose_frame_some h
  · by_cases hknown : cfg.algoritmoReemplazo = .other
    · simp only [useReplacementAlgorithm, hknown, Option.some.injEq, Prod.mk.injEq] at h
      rw [← h.1]
      exact hP.refl m
    · obtain ⟨c, p, turned, -, hkept, rfl, -⟩ := replacement_kept hP hknown h
      exact hP.trans hkept (hclock turned pid _)
  · exact hP.refl m'

theorem load_page_kept {pid frame : ℤ} {page : PageRef}
    (h : loadPage cfg m pid page frame = some m') : P m m' := by
  obtain ⟨pageToLoad, value, bitmap, clock, -, -, hbitmap, -, rfl⟩ := load_page_some h
  have hbits (ram : ℕ → UInt8) :
      P m { m with principalMemory := ram, bitmapMemory := bitmap } :=
    hP.trans (hP.ram m ram) (hP.memoryBits _ bitmap (write_bit_length hbitmap))
  have hrow (saved : Memory) := hP.row saved page
    (fun r => { r with frameNumber := frame, presence := true, use := true }) fun _ => rfl
  exact hP.trans (hP.trans (hbits _) (hrow _)) (hclock _ pid _)

theorem request_page_fault_kept {pcb : Pcb} {segmentNumber pageNumber : ℤ}
    {answer : Option KernelResponse}
    (h : requestPageFault cfg m pcb segmentNumber pageNumber = some (m', answer)) : P m m' := by
  obtain rfl | ⟨t, chosen, frame, hchosen, hloaded⟩ := page_fault_some h
  · exact hP.refl m'
  · exact hP.trans (choose_frame_kept hP hclock hchosen) (load_page_kept hP hclock hloaded)

end Faults

end Geck.UpdateRules
