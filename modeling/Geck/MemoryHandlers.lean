import Geck.MemoryPaging

/-!
# Requests served by the memory module

`attend_kernel` and `attend_cpu` hold one mutex while they serve a request, so
each request is one step of the module.
-/

set_option autoImplicit false

namespace Geck.MemoryHandlers
open Geck.BlockStore Geck.SharedPcb Geck.MemoryState Geck.MemoryPaging

inductive KernelRequest where
  | initProcessStructuresMemory (pcb : Pcb)
  | requestPageFault (pcb : Pcb) (segmentNumber pageNumber : ℤ)
  | endStructures (pcb : Pcb)
  deriving DecidableEq, Repr

inductive KernelResponse where
  | initProcessStructuresMemoryResponse (pcb : Pcb)
  | responsePageFault (pcb : Pcb)
  deriving DecidableEq, Repr

inductive CpuRequest where
  | sendConfig
  | frameRequest (pcb : Pcb) (pageNumber segmentNumber : ℤ)
  | movOut (physicalAddress : ℤ) (registerValue : UInt32) (segmentIndex pid : ℤ)
  | movIn (physicalAddress : ℤ) (pcb : Pcb) (segmentNumber pageNumber : ℤ)
  deriving DecidableEq, Repr

inductive CpuResponse where
  | configMemory (tamPagina entradasPorTabla : ℕ)
  | pageFault (frameNumber : ℤ)
  | frameResponse (frameNumber : ℤ)
  | movOutOk
  | movInOk (value : UInt32)
  deriving DecidableEq, Repr

def getFrameNumberRAM (m : Memory) (pcb : Pcb) (pageNumber segmentNumber : ℤ) : Option ℤ := do
  let segment ← listGet pcb.segmentTable segmentNumber
  match getPageTableByIndex m segment.indexPage with
  | none => some (-1)
  | some t =>
    let table ← m.allPageTables[t]?
    let page ← listGet table.pagesList pageNumber
    if page.presence then some page.frameNumber else some (-1)

/-- The bytes of a `uint32_t` as `memcpy` sees them on a little-endian machine. -/
def wordByte (v : UInt32) (k : ℕ) : UInt8 := UInt8.ofNat (v.toNat/256^k)

def loadWord (s : ℕ → UInt8) (a : ℕ) : UInt32 :=
  UInt32.ofNat ((s a).toNat+256*(s (a+1)).toNat+256^2*(s (a+2)).toNat+256^3*(s (a+3)).toNat)

def storeWord (s : ℕ → UInt8) (a : ℕ) (v : UInt32) : ℕ → UInt8 :=
  fun b => if a ≤ b ∧ b < a+4 then wordByte v (b-a) else s b

def readValueInPrincipalMemory (cfg : MemoryConfig) (m : Memory) (physicalAddress : ℤ) :
    Option UInt32 :=
  if 0 ≤ physicalAddress ∧ physicalAddress+4 ≤ cfg.tamMemoria then
    some (loadWord m.principalMemory physicalAddress.toNat)
  else none

/-- The search of `save_value_in_memory`: past the last row it dereferences the
null pointer `list_get` returns. -/
def searchRow (frame : ℤ) : List PageTableRow → ℕ → Option ℕ
  | [], _ => none
  | r::rows, i => if r.frameNumber ≠ frame ∨ r.presence ≠ true then searchRow frame rows (i+1)
      else some i

def listReplace {α : Type*} (l : List α) (i : ℤ) (x : α) : List α :=
  if 0 ≤ i then l.set i.toNat x else l

def saveValueInMemory (cfg : MemoryConfig) (m : Memory) (physicalAddress : ℤ)
    (registerValue : UInt32) (segmentIndex : ℤ) : Option Memory := do
  let frame := physicalAddress.tdiv cfg.tamPagina
  let t ← getPageTableByIndex m segmentIndex
  let table ← m.allPageTables[t]?
  let i ← searchRow frame table.pagesList 0
  if 0 ≤ physicalAddress ∧ physicalAddress+4 ≤ cfg.tamMemoria then do
    let m := { m with
      principalMemory := storeWord m.principalMemory physicalAddress.toNat registerValue }
    let m := modifyRow m ⟨t, i⟩ fun r => { r with modified := true }
    let table ← m.allPageTables[t]?
    some { m with allPageTables := listReplace m.allPageTables segmentIndex table }
  else none

def markUse (frameNumber : ℤ) : List ClockRow → Memory → Memory
  | [], m => m
  | c::rows, m =>
    markUse frameNumber rows
      (if frameNumber = c.frameNumberInMemory then
        modifyRow m c.page fun r => { r with use := true }
      else m)

def updatePageUse (m : Memory) (pcb : Pcb) (segmentNumber pageNumber : ℤ) : Option Memory := do
  let segment ← listGet pcb.segmentTable segmentNumber
  let t ← getPageTableByIndex m segment.indexPage
  let table ← m.allPageTables[t]?
  let page ← listGet table.pagesList pageNumber
  let clock ← getStructClock m pcb.processId
  some (markUse page.frameNumber clock.framesInMemory m)

def attendCpu (cfg : MemoryConfig) (m : Memory) : CpuRequest → Option (Memory × CpuResponse)
  | .sendConfig => some (m, .configMemory cfg.tamPagina cfg.entradasPorTabla)
  | .frameRequest pcb pageNumber segmentNumber => do
    let frame ← getFrameNumberRAM m pcb pageNumber segmentNumber
    if frame = -1 then some (m, .pageFault frame) else some (m, .frameResponse frame)
  | .movOut physicalAddress registerValue segmentIndex _ => do
    let m ← saveValueInMemory cfg m physicalAddress registerValue segmentIndex
    some (m, .movOutOk)
  | .movIn physicalAddress pcb segmentNumber pageNumber => do
    let m ← updatePageUse m pcb segmentNumber pageNumber
    let value ← readValueInPrincipalMemory cfg m physicalAddress
    some (m, .movInOk value)

/-- The part of `REQUEST_PAGE_FAULT` that decides the frame: the victim's when
the process holds all its frames, else the first free one. -/
def chooseFrame (cfg : MemoryConfig) (m : Memory) (processId : ℤ) : Option (Memory × ℤ) := do
  let frames ← framesInMemoryOfProcess m processId
  if frames = cfg.marcosPorProceso then useReplacementAlgorithm cfg m processId
  else do
    let frame ← findPageFree cfg m.bitmapMemory
    some (m, frame)

/-- The rest of `REQUEST_PAGE_FAULT`: bring the page into that frame. -/
def loadPage (cfg : MemoryConfig) (m : Memory) (processId : ℤ) (page : PageRef) (frame : ℤ) :
    Option Memory := do
  let pageToLoad ← row m page
  let value ← readPageSwap cfg m pageToLoad.swapPosition
  let m ← writeFrame cfg m frame value
  let bitmap ← writeBit m.bitmapMemory frame true
  let m := { m with bitmapMemory := bitmap }
  let m := modifyRow m page fun r =>
    { r with frameNumber := frame, presence := true, use := true }
  addPageToClockStructure m processId frame page pageToLoad.swapPosition

def requestPageFault (cfg : MemoryConfig) (m : Memory) (pcb : Pcb)
    (segmentNumber pageNumber : ℤ) : Option (Memory × Option KernelResponse) := do
  let segment ← listGet pcb.segmentTable segmentNumber
  match getPageTableByIndex m segment.indexPage with
  | none => some (m, none)
  | some t =>
    if 0 ≤ pageNumber then do
      let (m, frame) ← chooseFrame cfg m pcb.processId
      let m ← loadPage cfg m pcb.processId ⟨t, pageNumber.toNat⟩ frame
      some (m, some (.responsePageFault pcb))
    else none

def attendKernel (cfg : MemoryConfig) (m : Memory) :
    KernelRequest → Option (Memory × Option KernelResponse)
  | .initProcessStructuresMemory pcb => do
    let (pcb, m) ← initProcessStructures cfg m pcb
    some (m, some (.initProcessStructuresMemoryResponse pcb))
  | .requestPageFault pcb segmentNumber pageNumber =>
    requestPageFault cfg m pcb segmentNumber pageNumber
  | .endStructures pcb => do
    let m ← deleteProcess m pcb
    some (m, none)

section Served
variable {cfg : MemoryConfig} {m m' : Memory} {answer : Option KernelResponse} {pcb : Pcb}

theorem frames_of_clock {pid : ℤ} {c : ClockStruct} (hc : m.clockStructures pid = some c) :
    framesInMemoryOfProcess m pid = some c.framesInMemory.length := by
  simp [framesInMemoryOfProcess, getStructClock, hc]

theorem choose_frame_full {pid : ℤ} {c : ClockStruct} (hc : m.clockStructures pid = some c)
    (hfull : c.framesInMemory.length = cfg.marcosPorProceso) :
    chooseFrame cfg m pid = useReplacementAlgorithm cfg m pid := by
  simp only [chooseFrame, frames_of_clock hc, Option.bind_eq_bind, Option.bind_some, if_pos hfull]

theorem choose_frame_below {pid : ℤ} {c : ClockStruct} (hc : m.clockStructures pid = some c)
    (hbelow : c.framesInMemory.length ≠ cfg.marcosPorProceso) :
    chooseFrame cfg m pid = (findPageFree cfg m.bitmapMemory).map fun frame => (m, frame) := by
  simp only [chooseFrame, frames_of_clock hc, Option.bind_eq_bind, Option.bind_some, if_neg hbelow]
  cases findPageFree cfg m.bitmapMemory <;> rfl

/-- The frame is the victim's of a full clock, or the first free one. -/
theorem choose_frame_some {pid frame : ℤ} (h : chooseFrame cfg m pid = some (m', frame)) :
    ∃ c, m.clockStructures pid = some c ∧
      (c.framesInMemory.length = cfg.marcosPorProceso ∧
          useReplacementAlgorithm cfg m pid = some (m', frame) ∨
        c.framesInMemory.length ≠ cfg.marcosPorProceso ∧
          findPageFree cfg m.bitmapMemory = some frame ∧ m' = m) := by
  have hframes := h
  simp only [chooseFrame, Option.bind_eq_bind, Option.bind_eq_some_iff] at hframes
  obtain ⟨frames, hframes, -⟩ := hframes
  obtain ⟨c, hc, -⟩ := Option.bind_eq_some_iff.mp hframes
  refine ⟨c, hc, ?_⟩
  by_cases hfull : c.framesInMemory.length = cfg.marcosPorProceso
  · exact Or.inl ⟨hfull, (choose_frame_full hc hfull).symm.trans h⟩
  · rw [choose_frame_below hc hfull] at h
    obtain ⟨free, hfree, h⟩ := Option.map_eq_some_iff.mp h
    simp only [Prod.mk.injEq] at h
    obtain ⟨rfl, rfl⟩ := h
    exact Or.inr ⟨hfull, hfree, rfl⟩

theorem init_process_some {built : Pcb} (h : initProcessStructures cfg m pcb = some (built, m')) :
    ∃ segments, initSegments cfg pcb.segmentTable 0 (createClockStructure m pcb.processId) =
        some (segments, m') ∧ built = { pcb with segmentTable := segments } := by
  simp only [initProcessStructures, Option.bind_eq_bind, Option.bind_eq_some_iff] at h
  obtain ⟨⟨segments, last⟩, hsegments, h⟩ := h
  simp only [Option.some.injEq, Prod.mk.injEq] at h
  obtain ⟨rfl, rfl⟩ := h
  exact ⟨segments, hsegments, rfl⟩

theorem delete_process_some (h : deleteProcess m pcb = some m') :
    ∃ memory swap, deleteSegments m pcb.segmentTable (m.bitmapMemory, m.bitmapSwap) =
        some (memory, swap) ∧ m' = { m with bitmapMemory := memory, bitmapSwap := swap } := by
  simp only [deleteProcess, Option.bind_eq_bind, Option.bind_eq_some_iff] at h
  obtain ⟨⟨memory, swap⟩, hdelete, h⟩ := h
  exact ⟨memory, swap, hdelete, (Option.some.inj h).symm⟩

/-- What a served load leaves: the bytes, the bit, the row and the clock. -/
theorem load_page_some {pid frame : ℤ} {page : PageRef}
    (h : loadPage cfg m pid page frame = some m') :
    ∃ x value bitmap c, row m page = some x ∧ (0 ≤ frame ∧ frame < ramPages cfg) ∧
      writeBit m.bitmapMemory frame true = some bitmap ∧ m.clockStructures pid = some c ∧
      m' = setStructClock (modifyRow { m with
          principalMemory := putBlock cfg.tamPagina m.principalMemory frame.toNat value
          bitmapMemory := bitmap } page fun r =>
            { r with frameNumber := frame, presence := true, use := true }) pid
        { c with framesInMemory := addPageRows frame page x.swapPosition c.framesInMemory } := by
  simp only [loadPage, Option.bind_eq_bind, Option.bind_eq_some_iff] at h
  obtain ⟨x, hx, value, -, written, hwritten, bitmap, hbitmap, h⟩ := h
  simp only [writeFrame, Option.ite_none_right_eq_some, Option.some.injEq] at hwritten
  obtain ⟨hframe, rfl⟩ := hwritten
  simp only [addPageToClockStructure, Option.bind_eq_bind, Option.bind_eq_some_iff] at h
  obtain ⟨c, hc, h⟩ := h
  exact ⟨x, value, bitmap, c, hx, hframe, hbitmap, hc, (Option.some.inj h).symm⟩

/-- A page fault changes nothing when the table is not found, else it loads the page. -/
theorem page_fault_some {segmentNumber pageNumber : ℤ}
    (h : requestPageFault cfg m pcb segmentNumber pageNumber = some (m', answer)) :
    m' = m ∨ ∃ t chosen frame, chooseFrame cfg m pcb.processId = some (chosen, frame) ∧
      loadPage cfg chosen pcb.processId ⟨t, pageNumber.toNat⟩ frame = some m' := by
  simp only [requestPageFault, Option.bind_eq_bind, Option.bind_eq_some_iff] at h
  obtain ⟨segment, -, h⟩ := h
  split at h
  · simp only [Option.some.injEq, Prod.mk.injEq] at h
    exact Or.inl h.1.symm
  · next t _ =>
    split at h
    · simp only [Option.bind_eq_some_iff] at h
      obtain ⟨⟨chosen, frame⟩, hchosen, loaded, hloaded, h⟩ := h
      simp only [Option.some.injEq, Prod.mk.injEq] at h
      obtain ⟨rfl, -⟩ := h
      exact Or.inr ⟨t, chosen, frame, hchosen, hloaded⟩
    · simp at h

theorem attend_init_some
    (h : attendKernel cfg m (.initProcessStructuresMemory pcb) = some (m', answer)) :
    ∃ built, initProcessStructures cfg m pcb = some (built, m') ∧
      answer = some (.initProcessStructuresMemoryResponse built) := by
  simp only [attendKernel, Option.bind_eq_bind, Option.bind_eq_some_iff] at h
  obtain ⟨⟨built, last⟩, hinit, h⟩ := h
  simp only [Option.some.injEq, Prod.mk.injEq] at h
  obtain ⟨rfl, rfl⟩ := h
  exact ⟨built, hinit, rfl⟩

theorem attend_end_some (h : attendKernel cfg m (.endStructures pcb) = some (m', answer)) :
    deleteProcess m pcb = some m' ∧ answer = none := by
  simp only [attendKernel, Option.bind_eq_bind, Option.bind_eq_some_iff] at h
  obtain ⟨last, hdelete, h⟩ := h
  simp only [Option.some.injEq, Prod.mk.injEq] at h
  obtain ⟨rfl, rfl⟩ := h
  exact ⟨hdelete, rfl⟩

theorem attend_mov_out_some {address index pid : ℤ} {value : UInt32} {answer : CpuResponse}
    (h : attendCpu cfg m (.movOut address value index pid) = some (m', answer)) :
    saveValueInMemory cfg m address value index = some m' := by
  simp only [attendCpu, Option.bind_eq_bind, Option.bind_eq_some_iff] at h
  obtain ⟨stored, hstored, h⟩ := h
  simp only [Option.some.injEq, Prod.mk.injEq] at h
  obtain ⟨rfl, -⟩ := h
  exact hstored

theorem update_page_use_some {segmentNumber pageNumber : ℤ}
    (h : updatePageUse m pcb segmentNumber pageNumber = some m') :
    ∃ frame rows, m' = markUse frame rows m := by
  simp only [updatePageUse, Option.bind_eq_bind, Option.bind_eq_some_iff] at h
  obtain ⟨_, -, _, -, _, -, page, -, clock, -, h⟩ := h
  exact ⟨page.frameNumber, clock.framesInMemory, (Option.some.inj h).symm⟩

/-- A request of the CPU stores a word, sets use bits, or changes nothing. -/
theorem attend_cpu_cases {request : CpuRequest} {answer : CpuResponse}
    (h : attendCpu cfg m request = some (m', answer)) :
    m' = m ∨ (∃ address value index, saveValueInMemory cfg m address value index = some m') ∨
      ∃ frame rows, m' = markUse frame rows m := by
  cases request with
  | sendConfig =>
    left
    simp only [attendCpu, Option.some.injEq, Prod.mk.injEq] at h
    exact h.1.symm
  | frameRequest pcb pageNumber segmentNumber =>
    left
    simp only [attendCpu, Option.bind_eq_bind, Option.bind_eq_some_iff] at h
    obtain ⟨frame, -, h⟩ := h
    split at h <;> simp_all
  | movOut address value index pid =>
    exact Or.inr (Or.inl ⟨address, value, index, attend_mov_out_some h⟩)
  | movIn address pcb segmentNumber pageNumber =>
    right; right
    simp only [attendCpu, Option.bind_eq_bind, Option.bind_eq_some_iff] at h
    obtain ⟨marked, hmarked, value, -, h⟩ := h
    simp only [Option.some.injEq, Prod.mk.injEq] at h
    obtain ⟨rfl, -⟩ := h
    exact update_page_use_some hmarked

end Served

end Geck.MemoryHandlers
