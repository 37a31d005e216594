import Geck.UpdateRules
import Geck.MemoryIsolation

/-!
# The search for a free page

One search serves both bitmaps and is bounded by the number of swap pages; a
bitmap has whole bytes, so it can be shorter than its resource. A search that
meets a clear bit below its bound finds the lowest free page. Any other search
is right only for a full bitmap that is as long as its resource and as its bound.
-/

set_option autoImplicit false

namespace Geck.FreeSearch
open Geck.LabelledRuns Geck.BlockStore Geck.SharedPcb Geck.MemoryState Geck.MemoryPaging
open Geck.MemoryHandlers Geck.MemoryReplacement Geck.MemoryAccounting Geck.MemoryAllocation
open Geck.MemoryFaults Geck.MemorySystem Geck.MemoryIsolation Geck.UpdateRules

/-- The search tests no bit outside and answers the lowest free page of `n`, or -1. -/
def FindsLowest (cfg : MemoryConfig) (bitmap : List Bool) (n : ℕ) : Prop :=
  (∃ f : ℕ, IsLeast {j : ℕ | j < n ∧ ¬Marked bitmap j} f ∧ findPageFree cfg bitmap = some (f : ℤ)) ∨
    ((∀ j < n, Marked bitmap (j : ℕ)) ∧ findPageFree cfg bitmap = some (-1))

def Searchable (cfg : MemoryConfig) (bitmap : List Bool) (n : ℕ) : Prop :=
  (∃ j : ℕ, j < swapPages cfg ∧ Clear bitmap j) ∨
    (bitmap.length = n ∧ swapPages cfg ≤ n ∧ ∀ j < n, Marked bitmap (j : ℕ))

section Search
variable {cfg : MemoryConfig} {bitmap : List Bool} {n : ℕ}

theorem find_page_free_lowest (h : ∃ j : ℕ, j < swapPages cfg ∧ Clear bitmap j) :
    ∃ f : ℕ, f < swapPages cfg ∧ IsLeast {j : ℕ | Clear bitmap j} f ∧
      findPageFree cfg bitmap = some (f : ℤ) := by
  obtain ⟨j, hj, hc⟩ := h
  obtain ⟨f, hf, hclear, hle⟩ := find_page_free_clear cfg bitmap j hj hc
  refine ⟨f, by omega, ⟨hclear, fun i hi => ?_⟩, hf⟩
  by_cases hlt : i < swapPages cfg
  · obtain ⟨f', hf', -, hle'⟩ := find_page_free_clear cfg bitmap i hlt hi
    have hsame : (f : ℤ) = f' := Option.some.inj (hf.symm.trans hf')
    omega
  · omega

theorem find_page_free_from_full (n i : ℕ) (h : ∀ j : ℕ, i ≤ j → j < i+n → ¬Clear bitmap j) :
    findPageFreeFrom bitmap n i = if n = 0 ∨ i+n ≤ bitmap.length then some (-1) else none := by
  induction n generalizing i with
  | zero => simp [findPageFreeFrom]
  | succ n ih =>
    have hrest := ih (i+1) fun j hij hj => h j (by omega) (by omega)
    rw [findPageFreeFrom, list_get_nat]
    by_cases hi : i < bitmap.length
    · have hbit : bitmap[i] = true := by
        by_contra hb
        exact h i le_rfl (by omega) (by simp [Clear, list_get_nat, List.getElem?_eq_getElem hi, hb])
      simp only [List.getElem?_eq_getElem hi, hbit, Option.bind_eq_bind, Option.bind_some, if_true,
        hrest]
      exact if_congr (by omega) rfl rfl
    · rw [List.getElem?_eq_none (by omega), if_neg (by omega)]
      rfl

theorem find_page_free_full (h : ∀ j : ℕ, j < swapPages cfg → ¬Clear bitmap j) :
    findPageFree cfg bitmap = if swapPages cfg ≤ bitmap.length then some (-1) else none := by
  rw [findPageFree, find_page_free_from_full _ 0 fun j _ hj => h j (by omega)]
  exact if_congr (by omega) rfl rfl

theorem finds_lowest_iff (hlen : bitmap.length ≤ n) :
    FindsLowest cfg bitmap n ↔ Searchable cfg bitmap n := by
  by_cases hex : ∃ j : ℕ, j < swapPages cfg ∧ Clear bitmap j
  · obtain ⟨f, -, ⟨hclear, hleast⟩, hfind⟩ := find_page_free_lowest hex
    obtain ⟨⟨-, hlt⟩, hunmarked⟩ := clear_iff.mp hclear
    refine iff_of_true (Or.inl ⟨f, ⟨⟨by omega, hunmarked⟩, fun j hj => ?_⟩, hfind⟩) (Or.inl hex)
    by_cases hin : j < bitmap.length
    · exact hleast (clear_iff.mpr ⟨by omega, hj.2⟩)
    · omega
  · have hnone : ∀ j : ℕ, j < swapPages cfg → ¬Clear bitmap j := fun j hj hc => hex ⟨j, hj, hc⟩
    have hfind := find_page_free_full hnone
    constructor
    · rintro (⟨f, -, hf⟩ | ⟨hall, hf⟩)
      · rw [hfind] at hf
        split at hf
        · have := Option.some.inj hf
          omega
        · simp at hf
      · have hend : n ≤ bitmap.length := by
          by_contra hlt
          have := (marked_range (hall bitmap.length (by omega))).2
          omega
        have hbound : swapPages cfg ≤ bitmap.length := by
          by_contra hgt
          simp [hfind, hgt] at hf
        exact Or.inr ⟨by omega, by omega, hall⟩
    · rintro (hex' | ⟨hsame, hbound, hall⟩)
      · exact absurd hex' hex
      · exact Or.inr ⟨hall, by rw [hfind, if_pos (by omega)]⟩

end Search

/-- The bitmap of main memory has its length, and the clocks hold frames of main memory. -/
structure Framed (cfg : MemoryConfig) (m : Memory) : Prop where
  length : m.bitmapMemory.length = ramPages cfg/8*8
  frames : ∀ pid c, m.clockStructures pid = some c → ∀ k ∈ c.framesInMemory,
    InFrames cfg k.frameNumberInMemory

section Requests
variable {cfg : MemoryConfig} {m m' : Memory}

theorem length_kept : KeptByUpdates fun m m' => m'.bitmapMemory.length = m.bitmapMemory.length where
  refl _ := rfl
  trans h h' := h'.trans h
  row _ _ _ _ := rfl
  ram _ _ := rfl
  swapFile _ _ := rfl
  memoryBits _ _ h := h

theorem clocks_kept : KeptByUpdates fun m m' => m'.clockStructures = m.clockStructures where
  refl _ := rfl
  trans h h' := h'.trans h
  row _ _ _ _ := rfl
  ram _ _ := rfl
  swapFile _ _ := rfl
  memoryBits _ _ _ := rfl

/-- Choosing a frame moves at most the pointer of the clock. -/
theorem choose_frame_clocks {pid f : ℤ} (h : chooseFrame cfg m pid = some (m', f)) (p : ℤ)
    {c' : ClockStruct} (hc' : m'.clockStructures p = some c') :
    ∃ c, m.clockStructures p = some c ∧ c'.framesInMemory = c.framesInMemory := by
  obtain ⟨_, -, ⟨-, h⟩ | ⟨-, -, rfl⟩⟩ := choose_frame_some h
  · by_cases hknown : cfg.algoritmoReemplazo = .other
    · simp only [useReplacementAlgorithm, hknown, Option.some.injEq, Prod.mk.injEq] at h
      exact ⟨c', by rw [h.1]; exact hc', rfl⟩
    · obtain ⟨c, q, turned, hc, hkept, rfl, -⟩ := replacement_kept clocks_kept hknown h
      by_cases hp : p = pid
      · subst hp
        obtain rfl : { c with pointer := q } = c' := by simpa [setStructClock] using hc'
        exact ⟨c, hc, rfl⟩
      · exact ⟨c', by simpa [setStructClock, hp, hkept] using hc', rfl⟩
  · exact ⟨c', hc', rfl⟩

/-- A frame that a page was loaded in is one of main memory. -/
theorem load_page_frames {pid f : ℤ} {v : PageRef} (hm : Framed cfg m)
    (h : loadPage cfg m pid v f = some m') (p : ℤ) {c' : ClockStruct}
    (hc' : m'.clockStructures p = some c') : ∀ k ∈ c'.framesInMemory,
      InFrames cfg k.frameNumberInMemory := by
  obtain ⟨x, value, bitmap, c, -, hf, -, hc, rfl⟩ := load_page_some h
  by_cases hp : p = pid
  · subst hp
    obtain rfl : { c with framesInMemory := addPageRows f v x.swapPosition c.framesInMemory } = c' := by
      simpa [setStructClock] using hc'
    intro k hk
    have hframes := add_page_rows_frames f v x.swapPosition c.framesInMemory
    have hin : k.frameNumberInMemory ∈ c.framesInMemory.map ClockRow.frameNumberInMemory ∨
        k.frameNumberInMemory = f := by
      have hmem := List.mem_map_of_mem (f := ClockRow.frameNumberInMemory) hk
      rw [hframes] at hmem
      split at hmem
      · exact Or.inl hmem
      · simpa using hmem
    obtain hin | rfl := hin
    · obtain ⟨j, hj, hjk⟩ := List.mem_map.mp hin
      exact hjk ▸ hm.frames p c hc j hj
    · exact hf
  · exact hm.frames p c' (by simpa [setStructClock, hp] using hc')

theorem request_page_fault_framed {pcb : Pcb} {sn pn : ℤ} {answer : Option KernelResponse}
    (hm : Framed cfg m) (h : requestPageFault cfg m pcb sn pn = some (m', answer)) :
    Framed cfg m' := by
  refine ⟨(request_page_fault_kept length_kept (fun _ _ _ => rfl) h).trans hm.length, ?_⟩
  obtain rfl | ⟨t, chosen, f, hchosen, hloaded⟩ := page_fault_some h
  · exact hm.frames
  · have hkept := choose_frame_kept length_kept (fun _ _ _ => rfl) hchosen
    refine fun p c' => load_page_frames ⟨hkept.trans hm.length, fun q d' hd' k hk => ?_⟩ hloaded p
    obtain ⟨d, hd, hrows⟩ := choose_frame_clocks hchosen q hd'
    exact hm.frames q d hd k (hrows ▸ hk)

theorem delete_segments_length (segments : List Segment) {bits bits' : List Bool × List Bool}
    (h : deleteSegments m segments bits = some bits') :
    bits'.1.length = bits.1.length ∧ bits'.2.length = bits.2.length := by
  induction segments generalizing bits with
  | nil =>
    obtain rfl := Option.some.inj h
    exact ⟨rfl, rfl⟩
  | cons segment rest ih =>
    simp only [deleteSegments, Option.bind_eq_bind, Option.bind_eq_some_iff] at h
    obtain ⟨t, -, table, -, middle, hrows, h⟩ := h
    obtain ⟨hfirst, hsecond⟩ := ih h
    have hgone := delete_rows_released hrows
    exact ⟨hfirst.trans hgone.memoryLength, hsecond.trans hgone.swapLength⟩

theorem init_segments_framed (segments : List Segment) {i : ℤ} {answer : List Segment}
    (h : initSegments cfg segments i m = some (answer, m')) :
    m'.bitmapMemory = m.bitmapMemory ∧ m'.clockStructures = m.clockStructures := by
  induction segments generalizing i m answer with
  | nil =>
    simp only [initSegments, Option.some.injEq, Prod.mk.injEq] at h
    exact ⟨h.2 ▸ rfl, h.2 ▸ rfl⟩
  | cons segment rest ih =>
    simp only [initSegments, Option.bind_eq_bind, Option.bind_eq_some_iff] at h
    obtain ⟨⟨table, bitmap⟩, -, ⟨later, last⟩, hrest, h⟩ := h
    simp only [Option.some.injEq, Prod.mk.injEq] at h
    obtain ⟨-, rfl⟩ := h
    have hlater := ih hrest
    exact hlater

theorem attend_cpu_framed {q : CpuRequest} {answer : CpuResponse}
    (h : attendCpu cfg m q = some (m', answer)) :
    m'.bitmapMemory = m.bitmapMemory ∧ m'.clockStructures = m.clockStructures := by
  obtain rfl | ⟨address, value, index, hsaved⟩ | ⟨frame, rows, rfl⟩ := attend_cpu_cases h
  · exact ⟨rfl, rfl⟩
  · simp only [saveValueInMemory, Option.bind_eq_bind, Option.bind_eq_some_iff] at hsaved
    obtain ⟨t, -, table, -, i, -, hsaved⟩ := hsaved
    split at hsaved
    · obtain ⟨table', -, hsaved⟩ := Option.bind_eq_some_iff.mp hsaved
      obtain rfl := Option.some.inj hsaved
      exact ⟨rfl, rfl⟩
    · simp at hsaved
  · have hsame := mark_use_same_holdings frame rows m
    exact ⟨hsame.memoryBits, hsame.clocks⟩

theorem site_step_framed (s : Site) (q : Request) (s' : Site) (hm : Framed cfg s.memory)
    (h : siteStep cfg s q = some s') : Framed cfg s'.memory := by
  obtain ⟨request, m', answer, rfl, hq, rfl⟩ | ⟨pcb, built, m', rfl, hinit, rfl⟩ |
    ⟨pcb, sn, pn, m', answer, rfl, hq, rfl⟩ | ⟨pcb, m', rfl, hdelete, rfl⟩ := site_step_cases h
  · obtain ⟨hbits, hclocks⟩ := attend_cpu_framed hq
    exact ⟨hbits ▸ hm.length, hclocks ▸ hm.frames⟩
  · obtain ⟨segments, hsegments, -⟩ := init_process_some hinit
    obtain ⟨hbits, hclocks⟩ := init_segments_framed _ hsegments
    refine ⟨hbits ▸ hm.length, fun p c hc => ?_⟩
    rw [hclocks] at hc
    by_cases hp : p = pcb.processId
    · subst hp
      simp only [createClockStructure, setStructClock, Function.update_self, Option.some.injEq] at hc
      simp [← hc]
    · exact hm.frames p c (by simpa [createClockStructure, setStructClock, hp] using hc)
  · exact request_page_fault_framed hm hq
  · obtain ⟨memory, swap, hreleased, rfl⟩ := delete_process_some hdelete
    exact ⟨(delete_segments_length _ hreleased).1.trans hm.length, hm.frames⟩

theorem boot_framed (cfg : MemoryConfig) (ram swap : ℕ → UInt8) :
    Framed cfg (boot cfg ram swap).memory :=
  ⟨by simp [boot, initMemory, createBitmap, ramPages], by simp [boot, initMemory]⟩

end Requests

/-- `REQUEST_PAGE_FAULT` of the process would use a frame of main memory. -/
def UsesRealFrame (cfg : MemoryConfig) (m : Memory) (pid : ℤ) : Prop :=
  ∃ m' f, chooseFrame cfg m pid = some (m', f) ∧ InFrames cfg f

/-- A process below its limit gets a frame of main memory exactly when a frame is free below
the number of swap pages; at its limit the victim's frame is one. -/
structure FaultFrames (cfg : MemoryConfig) (m : Memory) (pid : ℤ) (c : ClockStruct) : Prop where
  below : c.framesInMemory.length ≠ cfg.marcosPorProceso →
    (UsesRealFrame cfg m pid ↔ ∃ j : ℕ, j < swapPages cfg ∧ Clear m.bitmapMemory j)
  full : c.framesInMemory.length = cfg.marcosPorProceso → cfg.algoritmoReemplazo ≠ .other →
    ∀ m' f, chooseFrame cfg m pid = some (m', f) → InFrames cfg f

theorem framed_fault_frames {cfg : MemoryConfig} {m : Memory} (hm : Framed cfg m) {pid : ℤ}
    {c : ClockStruct} (hc : m.clockStructures pid = some c) : FaultFrames cfg m pid c := by
  refine ⟨fun hbelow => ?_, fun hfull hknown m' f h => ?_⟩
  · have hchoose := choose_frame_below hc hbelow
    constructor
    · rintro ⟨m', f, h, h0, -⟩
      by_contra hnone
      rw [hchoose, find_page_free_full fun j hj hclear => hnone ⟨j, hj, hclear⟩] at h
      split at h
      · simp only [Option.map_some, Option.some.injEq, Prod.mk.injEq] at h
        omega
      · simp at h
    · intro hex
      obtain ⟨f, -, ⟨hclear, -⟩, hfind⟩ := find_page_free_lowest hex
      have hlt := (clear_iff.mp hclear).1
      have hlen := hm.length
      have hle := Nat.div_mul_le_self (ramPages cfg) 8
      exact ⟨m, f, by rw [hchoose, hfind]; rfl, hlt.1, by omega⟩
  · rw [choose_frame_full hc hfull] at h
    obtain ⟨c', q, turned, hc', -, -, hmem⟩ := replacement_kept clocks_kept hknown h
    obtain ⟨k, hk, rfl⟩ := List.mem_map.mp hmem
    exact hm.frames pid c' hc' k hk

/-- The search is right exactly where a clear bit lies below the number of swap pages, or
where the full bitmap, its resource and the bound are equally long; and the frame of a page
fault is one of main memory exactly where the search, if it is asked, meets a clear bit. -/
theorem free_search_iff (cfg : MemoryConfig) :
    (∀ bitmap, bitmap.length = ramPages cfg/8*8 →
      (FindsLowest cfg bitmap (ramPages cfg) ↔ Searchable cfg bitmap (ramPages cfg))) ∧
    (∀ bitmap, bitmap.length = swapPages cfg/8*8 →
      (FindsLowest cfg bitmap (swapPages cfg) ↔ Searchable cfg bitmap (swapPages cfg))) ∧
    ∀ ram swap requests s, run (siteStep cfg) (boot cfg ram swap) requests = some s →
      ∀ pid c, s.memory.clockStructures pid = some c → FaultFrames cfg s.memory pid c := by
  refine ⟨fun bitmap hlen => finds_lowest_iff (hlen ▸ Nat.div_mul_le_self _ 8),
    fun bitmap hlen => finds_lowest_iff (hlen ▸ Nat.div_mul_le_self _ 8),
    fun ram swap requests s h pid c hc => framed_fault_frames ?_ hc⟩
  exact invariant_run (siteStep cfg) (fun s => Framed cfg s.memory) site_step_framed requests _ s
    (boot_framed cfg ram swap) h

/-- A fresh bitmap is searched well, and a process below its limit gets a frame. -/
theorem free_search_small :
    FindsLowest smallConfig (List.replicate 8 false) (ramPages smallConfig) ∧
      ∃ c, smallSite.memory.clockStructures 1 = some c ∧
        FaultFrames smallConfig smallSite.memory 1 c := by
  obtain ⟨hram, -, hruns⟩ := free_search_iff smallConfig
  have hclock : (smallSite.memory.clockStructures 1).isSome = true := by decide +kernel
  obtain ⟨c, hc⟩ := Option.isSome_iff_exists.mp hclock
  exact ⟨(hram _ (by decide)).mpr (Or.inl ⟨0, by decide, rfl⟩), c, hc,
    hruns zeros zeros smallRequests smallSite small_site_reached 1 c hc⟩

/-- Eight frames, sixteen swap pages, and a process that may hold nine frames. -/
def tightConfig : MemoryConfig :=
  { smallConfig with entradasPorTabla := 16, marcosPorProceso := 9, tamanioSwap := 64 }

/-- Sixteen frames and eight swap pages. -/
def wideConfig : MemoryConfig := { smallConfig with tamMemoria := 64 }

def longPcb (indexPage : ℤ) : Pcb :=
  { smallPcb indexPage with segmentTable := [{ indexPage := indexPage, number := 0, size := 36 }] }

/-- Eight pages of nine are loaded. -/
def eightFaults : List Request :=
  .kernel (.initProcessStructuresMemory (longPcb (-1)))::
    (List.range 8).map fun n => .kernel (.requestPageFault (longPcb 0) 0 n)

def fullSite : Site := reached (siteStep tightConfig) (boot tightConfig zeros zeros) eightFaults

/-- With more swap than RAM the search leaves a full bitmap, in a run as well; with less swap
it misses the free frames past its bound. -/
theorem free_search_misses :
    ¬FindsLowest tightConfig (List.replicate 8 true) (ramPages tightConfig) ∧
    ¬FindsLowest wideConfig (List.replicate 8 true++List.replicate 8 false) (ramPages wideConfig) ∧
    run (siteStep tightConfig) (boot tightConfig zeros zeros) eightFaults = some fullSite ∧
    ¬UsesRealFrame tightConfig fullSite.memory 1 := by
  refine ⟨?_, ?_, run_reached _ _ _ (by decide +kernel), ?_⟩
  · have hnone : findPageFree tightConfig (List.replicate 8 true) = none := by decide
    rintro (⟨f, -, hf⟩ | ⟨-, hf⟩)
    · exact absurd (hnone.symm.trans hf) (by simp)
    · exact absurd (hnone.symm.trans hf) (by simp)
  · have hlast : findPageFree wideConfig (List.replicate 8 true++List.replicate 8 false) = some (-1) := by
      decide
    rintro (⟨f, -, hf⟩ | ⟨hall, -⟩)
    · have := Option.some.inj (hlast.symm.trans hf)
      omega
    · exact absurd (hall 8 (by decide)) (by decide)
  · have hnone : (chooseFrame tightConfig fullSite.memory 1).isNone = true := by decide +kernel
    rintro ⟨m', f, h, -⟩
    simp [h] at hnone

end Geck.FreeSearch
