import Geck.MemoryHandlers

/-!
# The TLB and the MMU of the CPU

The TLB is a list of rows that `init_tlb` fills with rows of no process. A
lookup refreshes the row it hits; a miss asks memory for the frame and adds a
row, over the oldest or the least recently used one when the list is full.
Times are the readings of the clock and are inputs.
-/

set_option autoImplicit false

namespace Geck.CpuTranslation
open Geck.BlockStore Geck.SharedPcb Geck.MemoryHandlers

structure TimeVal where
  sec : ℤ
  usec : ℤ
  deriving DecidableEq, Repr

structure RowTlb where
  processId : ℤ
  segment : ℤ
  page : ℤ
  frame : ℤ
  initTime : TimeVal
  lastReference : TimeVal
  deriving DecidableEq, Repr

inductive ReemplazoTlb where
  | fifo
  | lru
  | other
  deriving DecidableEq, Repr

/-- The configuration of the CPU with what memory sent it. `listSort` and
`stringSplit` are the functions of that name of the commons library. -/
structure CpuConfig where
  entradasTlb : ℕ
  reemplazoTlb : ReemplazoTlb
  tamPagina : ℕ
  entradasPorTabla : ℕ
  listSort : (RowTlb → RowTlb → Bool) → List RowTlb → List RowTlb
  stringSplit : String → String → List String

def newRow (processId segment pageNumber frame : ℤ) (time : TimeVal) : RowTlb where
  processId := processId
  segment := segment
  page := pageNumber
  frame := frame
  initTime := time
  lastReference := time

def initTlb (cfg : CpuConfig) (time : TimeVal) : List RowTlb :=
  List.replicate cfg.entradasTlb (newRow (-1) (-1) (-1) (-1) time)

def compareLastReference (firstRow secondRow : RowTlb) : Bool :=
  if firstRow.lastReference.sec = secondRow.lastReference.sec then
    firstRow.lastReference.usec < secondRow.lastReference.usec
  else firstRow.lastReference.sec < secondRow.lastReference.sec

def addToTlb (cfg : CpuConfig) (tlb : List RowTlb) (processId segment pageNumber frame : ℤ)
    (time : TimeVal) : List RowTlb :=
  if cfg.entradasTlb = 0 then tlb
  else if tlb.length < cfg.entradasTlb then
    tlb++[newRow processId segment pageNumber frame time]
  else if tlb.length = cfg.entradasTlb then
    let kept := match cfg.reemplazoTlb with
      | .fifo => tlb.tail
      | .lru => (cfg.listSort compareLastReference tlb).tail
      | .other => tlb
    kept++[newRow processId segment pageNumber frame time]
  else tlb

def RowTlb.holds (row : RowTlb) (pageNumber segmentNumber pcbId : ℤ) : Bool :=
  row.page = pageNumber && row.segment = segmentNumber && row.processId = pcbId

/-- The loop of `present_in_tlb`, with the rows still to visit and the index. -/
def presentInTlbFrom (tlb : List RowTlb) (pageNumber segmentNumber pcbId : ℤ) (time : TimeVal) :
    ℕ → ℕ → Option (ℤ × List RowTlb)
  | 0, _ => some (-1, tlb)
  | n+1, i => do
    let row ← tlb[i]?
    if row.holds pageNumber segmentNumber pcbId then
      some (row.frame, tlb.set i { row with lastReference := time })
    else presentInTlbFrom tlb pageNumber segmentNumber pcbId time n (i+1)

def presentInTlb (cfg : CpuConfig) (tlb : List RowTlb) (pageNumber segmentNumber pcbId : ℤ)
    (time : TimeVal) : Option (ℤ × List RowTlb) :=
  presentInTlbFrom tlb pageNumber segmentNumber pcbId time cfg.entradasTlb 0

structure LogicalAddressParameters where
  maxSegmentSize : ℤ
  segmentNumber : ℤ
  segmentOffset : ℤ
  pageNum : ℤ
  pageOffset : ℤ
  deriving DecidableEq, Repr

/-- The parameters and whether `sigsegv` is raised. -/
def translateLogicalAddress (cfg : CpuConfig) (logicalAddress : ℤ) (pcb : Pcb) :
    Option (LogicalAddressParameters × Bool) := do
  let maxSegmentSize : ℤ := cfg.entradasPorTabla*cfg.tamPagina
  let segmentNumber := logicalAddress.tdiv maxSegmentSize
  let segmentOffset := logicalAddress.tmod maxSegmentSize
  let segment ← listGet pcb.segmentTable segmentNumber
  some ({
    maxSegmentSize := maxSegmentSize
    segmentNumber := segmentNumber
    segmentOffset := segmentOffset
    pageNum := segmentOffset.tdiv cfg.tamPagina
    pageOffset := segmentOffset.tmod cfg.tamPagina }, decide (segmentOffset ≥ segment.size))

def calculatePhysicalAddress (frame offset : ℤ) (pageSize : ℕ) : ℤ := frame*pageSize+offset

/-- What `find_frame` makes of the answer to `FRAME_REQUEST`: the frame, and
whether `page_fault` is raised. Any other answer ends the CPU. -/
def findFrame : CpuResponse → Option (ℤ × Bool)
  | .frameResponse frame => some (frame, false)
  | .pageFault frame => some (frame, true)
  | _ => none

/-- The clock readings of one translation: of the lookup and of the row added. -/
structure Readings where
  lookup : TimeVal
  added : TimeVal
  deriving DecidableEq, Repr

/-- `answer` is what memory would answer to `FRAME_REQUEST`; it is asked on a
miss only. The result is the address, the TLB and whether `page_fault` is raised. -/
def buildPhysicalAddress (cfg : CpuConfig) (tlb : List RowTlb) (answer : Option CpuResponse)
    (times : Readings) (params : LogicalAddressParameters) (pcb : Pcb) :
    Option (ℤ × List RowTlb × Bool) := do
  let (frame, tlb) ← presentInTlb cfg tlb params.pageNum params.segmentNumber pcb.processId
    times.lookup
  if frame = -1 then do
    let response ← answer
    let (frame, fault) ← findFrame response
    if frame ≠ -1 then
      some (frame*cfg.tamPagina+params.pageOffset,
        addToTlb cfg tlb pcb.processId params.segmentNumber params.pageNum frame times.added, fault)
    else some (-1, tlb, fault)
  else some (calculatePhysicalAddress frame params.pageOffset cfg.tamPagina, tlb, false)

/-- Sorting neither loses nor invents rows. -/
def Sorts (cfg : CpuConfig) : Prop := ∀ before rows, (cfg.listSort before rows).Perm rows

/-- The policy replaces a row when the TLB is full. -/
structure ReplacesRows (cfg : CpuConfig) : Prop where
  policy : cfg.reemplazoTlb ≠ .other
  sorted : Sorts cfg

/-- The same rows, up to the time of their last reference. -/
def mapping (row : RowTlb) : ℤ × ℤ × ℤ × ℤ := (row.processId, row.segment, row.page, row.frame)

theorem map_set_same {tlb : List RowTlb} {i : ℕ} (hi : i < tlb.length) {row : RowTlb}
    (h : mapping row = mapping tlb[i]) : (tlb.set i row).map mapping = tlb.map mapping := by
  apply List.ext_getElem?
  intro j
  by_cases hj : i = j
  · subst hj
    simp [hi, h]
  · simp [hj]

theorem present_in_tlb_from (tlb : List RowTlb) (pageNumber segmentNumber pcbId : ℤ)
    (time : TimeVal) (n i : ℕ) (hn : i+n ≤ tlb.length) :
    ∃ frame tlb', presentInTlbFrom tlb pageNumber segmentNumber pcbId time n i =
        some (frame, tlb') ∧ tlb'.map mapping = tlb.map mapping ∧
      (frame = -1 ∨ (pcbId, segmentNumber, pageNumber, frame) ∈ tlb.map mapping) := by
  induction n generalizing i with
  | zero => exact ⟨-1, tlb, rfl, rfl, Or.inl rfl⟩
  | succ n ih =>
    have hi : i < tlb.length := by omega
    simp only [presentInTlbFrom, List.getElem?_eq_getElem hi, Option.bind_eq_bind, Option.bind_some]
    split
    · rename_i hrow
      refine ⟨_, _, rfl, ?_, Or.inr ?_⟩
      · exact map_set_same hi rfl
      · simp only [RowTlb.holds, Bool.and_eq_true, decide_eq_true_eq] at hrow
        obtain ⟨⟨rfl, rfl⟩, rfl⟩ := hrow
        exact List.mem_map_of_mem (f := mapping) (List.getElem_mem hi)
    · exact ih (i+1) (by omega)

theorem present_in_tlb_found (cfg : CpuConfig) (tlb : List RowTlb)
    (pageNumber segmentNumber pcbId : ℤ) (time : TimeVal) (hlen : cfg.entradasTlb ≤ tlb.length) :
    ∃ frame tlb', presentInTlb cfg tlb pageNumber segmentNumber pcbId time = some (frame, tlb') ∧
      tlb'.map mapping = tlb.map mapping ∧
      (frame = -1 ∨ (pcbId, segmentNumber, pageNumber, frame) ∈ tlb.map mapping) :=
  present_in_tlb_from tlb pageNumber segmentNumber pcbId time cfg.entradasTlb 0 (by omega)

theorem add_to_tlb_length {cfg : CpuConfig} (hcfg : ReplacesRows cfg) (tlb : List RowTlb)
    (processId segment pageNumber frame : ℤ) (time : TimeVal)
    (hlen : tlb.length = cfg.entradasTlb) :
    (addToTlb cfg tlb processId segment pageNumber frame time).length = cfg.entradasTlb := by
  unfold addToTlb
  split
  · exact hlen
  · simp only [hlen]
    cases hp : cfg.reemplazoTlb with
    | fifo => simp; omega
    | lru => simp [(hcfg.sorted compareLastReference tlb).length_eq]; omega
    | other => exact absurd hp hcfg.policy

theorem add_to_tlb_mem {cfg : CpuConfig} (hsort : Sorts cfg) {tlb : List RowTlb}
    {processId segment pageNumber frame : ℤ} {time : TimeVal} {row : RowTlb}
    (h : row ∈ addToTlb cfg tlb processId segment pageNumber frame time) :
    row ∈ tlb ∨ row = newRow processId segment pageNumber frame time := by
  unfold addToTlb at h
  split at h
  · exact Or.inl h
  split at h
  · simpa using h
  split at h
  · cases hp : cfg.reemplazoTlb with
    | fifo =>
      simp only [hp, List.mem_append, List.mem_singleton] at h
      exact h.imp_left List.mem_of_mem_tail
    | lru =>
      simp only [hp, List.mem_append, List.mem_singleton] at h
      exact h.imp_left fun h => (hsort _ _).subset (List.mem_of_mem_tail h)
    | other => simpa [hp] using h
  · exact Or.inl h

/-- Under any policy the TLB keeps the rows that a lookup visits. -/
theorem add_to_tlb_enough {cfg : CpuConfig} (hsort : Sorts cfg) (tlb : List RowTlb)
    (processId segment pageNumber frame : ℤ) (time : TimeVal)
    (hlen : cfg.entradasTlb ≤ tlb.length) :
    cfg.entradasTlb ≤ (addToTlb cfg tlb processId segment pageNumber frame time).length := by
  unfold addToTlb
  split
  · exact hlen
  split
  · simp
    omega
  split
  · cases hp : cfg.reemplazoTlb with
    | fifo => simp; omega
    | lru => simp [(hsort compareLastReference tlb).length_eq]; omega
    | other => simp; omega
  · exact hlen

/-- The words of a line between blanks. -/
def words : List Char → List Char → List String
  | [], word => [String.ofList word.reverse]
  | c::cs, word => if c = ' ' then String.ofList word.reverse::words cs [] else words cs (c::word)

def smallCpu : CpuConfig where
  entradasTlb := 2
  reemplazoTlb := .fifo
  tamPagina := 4
  entradasPorTabla := 4
  listSort := fun before rows => rows.mergeSort before
  stringSplit := fun line _ => words line.toList []

theorem small_cpu_replaces : ReplacesRows smallCpu :=
  ⟨by decide, fun before rows => List.mergeSort_perm rows before⟩

def midnight : TimeVal := ⟨0, 0⟩

end Geck.CpuTranslation
