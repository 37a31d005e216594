import Geck.MemorySystem
import Geck.UpdateRules

/-!
# The page tables that are there

A request builds tables behind the others or leaves the tables as they are, up
to their rows. This needs no promise of the kernel and no free page: a request
that cannot be served is refused.
-/

set_option autoImplicit false

namespace Geck.PageTables
open Geck.LabelledRuns Geck.BlockStore Geck.SharedPcb Geck.MemoryState Geck.MemoryPaging
open Geck.MemoryHandlers Geck.MemoryAccounting Geck.MemorySystem Geck.UpdateRules

/-- A table has its position for id, and the next one will. -/
structure Tabled (m : Memory) : Prop where
  ids : ∀ (i : ℕ) t, m.allPageTables[i]? = some t → t.id = i
  counter : m.pageTablesCounter = m.allPageTables.length

structure SameTables (m m' : Memory) : Prop where
  shape : tableShape m' = tableShape m
  counter : m'.pageTablesCounter = m.pageTablesCounter

theorem SameTables.trans {a b c : Memory} (h : SameTables a b) (h' : SameTables b c) :
    SameTables a c :=
  ⟨h'.shape.trans h.shape, h'.counter.trans h.counter⟩

theorem SameTables.tabled {m m' : Memory} (h : SameTables m m') (ht : Tabled m) : Tabled m' where
  ids := shape_table_ids h.shape ht.ids
  counter := by
    rw [h.counter, ht.counter, shape_tables_length h.shape]

theorem tables_modified (m : Memory) (page : PageRef) (f : PageTableRow → PageTableRow) :
    SameTables m (modifyRow m page f) :=
  ⟨shape_modify m page f, rfl⟩

section Faults
variable {cfg : MemoryConfig} {m m' : Memory}

theorem same_tables_kept : KeptByUpdates SameTables where
  refl _ := ⟨rfl, rfl⟩
  trans := SameTables.trans
  row m r f _ := tables_modified m r f
  ram _ _ := ⟨rfl, rfl⟩
  swapFile _ _ := ⟨rfl, rfl⟩
  memoryBits _ _ _ := ⟨rfl, rfl⟩

theorem request_page_fault_tables {pcb : Pcb} {segmentNumber pageNumber : ℤ}
    {answer : Option KernelResponse}
    (h : requestPageFault cfg m pcb segmentNumber pageNumber = some (m', answer)) :
    SameTables m m' :=
  request_page_fault_kept same_tables_kept (fun _ _ _ => ⟨rfl, rfl⟩) h

/-- A page fault is answered with its own PCB once the table of its segment is found. -/
theorem request_page_fault_answer {pcb : Pcb} {segmentNumber pageNumber : ℤ} {segment : Segment}
    {answer : Option KernelResponse} (hsegment : listGet pcb.segmentTable segmentNumber = some segment)
    (hfound : getPageTableByIndex m segment.indexPage ≠ none)
    (h : requestPageFault cfg m pcb segmentNumber pageNumber = some (m', answer)) :
    answer = some (.responsePageFault pcb) := by
  simp only [requestPageFault, hsegment, Option.bind_eq_bind, Option.bind_some] at h
  split at h
  · next hnone => exact absurd hnone hfound
  · split at h
    · simp only [Option.bind_eq_some_iff] at h
      obtain ⟨⟨chosen, frame⟩, -, loaded, -, h⟩ := h
      simp only [Option.some.injEq, Prod.mk.injEq] at h
      exact h.2.symm
    · simp at h

theorem delete_process_tables {pcb : Pcb} (h : deleteProcess m pcb = some m') :
    SameTables m m' := by
  obtain ⟨memory, swap, -, rfl⟩ := delete_process_some h
  exact ⟨rfl, rfl⟩

theorem attend_cpu_tables {request : CpuRequest} {answer : CpuResponse} (ht : Tabled m)
    (h : attendCpu cfg m request = some (m', answer)) : SameTables m m' := by
  have hsame := cpu_same_holdings ht.ids h
  exact ⟨hsame.shape, hsame.counter⟩

end Faults

section Builds
variable {cfg : MemoryConfig}

theorem builder_rows_length (n : ℕ) {bitmap bitmap' : List Bool} {rows : List PageTableRow}
    (h : builderRows cfg n bitmap = some (rows, bitmap')) : rows.length = n := by
  induction n generalizing bitmap bitmap' rows with
  | zero =>
    simp only [builderRows, Option.some.injEq, Prod.mk.injEq] at h
    rw [← h.1]
    rfl
  | succ n ih =>
    simp only [builderRows, Option.bind_eq_bind, Option.bind_eq_some_iff] at h
    obtain ⟨position, -, marked, -, ⟨rest, last⟩, hrest, h⟩ := h
    simp only [Option.some.injEq, Prod.mk.injEq] at h
    rw [← h.1, List.length_cons, ih hrest]

/-- The table of the segment at position `i` of the segment table. -/
structure TableOf (cfg : MemoryConfig) (table : PageTable) (i : ℕ) (segment : Segment) : Prop where
  id : table.id = segment.indexPage
  segmentNum : table.segmentNum = i
  rows : table.pagesList.length = (calculateFramesOfSegment cfg segment.size).toNat

/-- `m'` is `m` with a table for each segment, from the segment `i` on, behind the others. -/
structure Builds (cfg : MemoryConfig) (m m' : Memory) (i : ℕ) (segments : List Segment) : Prop where
  tabled : Tabled m'
  longer : m'.allPageTables.length = m.allPageTables.length+segments.length
  old : ∀ t < m.allPageTables.length, m'.allPageTables[t]? = m.allPageTables[t]?
  added : ∀ (k : ℕ) segment, segments[k]? = some segment →
    segment.indexPage = (m.allPageTables.length+k : ℕ) ∧
    ∃ table, m'.allPageTables[m.allPageTables.length+k]? = some table ∧
      TableOf cfg table (i+k) segment

/-- The segments that memory builds differ from those it got in their tables only. -/
theorem init_segments_same {segments built : List Segment} {i : ℤ} {m m' : Memory}
    (h : initSegments cfg segments i m = some (built, m')) :
    (built.map fun segment => { segment with indexPage := -1 }) =
      segments.map fun segment => { segment with indexPage := -1 } := by
  induction segments generalizing built i m with
  | nil =>
    simp only [initSegments, Option.some.injEq, Prod.mk.injEq] at h
    rw [← h.1]
  | cons segment segments ih =>
    simp only [initSegments, Option.bind_eq_bind, Option.bind_eq_some_iff] at h
    obtain ⟨⟨table, bitmap⟩, -, ⟨others, last⟩, hothers, h⟩ := h
    simp only [Option.some.injEq, Prod.mk.injEq] at h
    obtain ⟨rfl, rfl⟩ := h
    simp [ih hothers]

theorem init_segments_builds (rest : List Segment) {i : ℕ} {m m' : Memory} {segments : List Segment}
    (ht : Tabled m) (h : initSegments cfg rest i m = some (segments, m')) :
    Builds cfg m m' i segments := by
  induction rest generalizing i m segments with
  | nil =>
    simp only [initSegments, Option.some.injEq, Prod.mk.injEq] at h
    obtain ⟨rfl, rfl⟩ := h
    exact ⟨ht, rfl, fun _ _ => rfl, by simp⟩
  | cons segment rest ih =>
    simp only [initSegments, builderPageTable, Option.bind_eq_bind, Option.bind_eq_some_iff] at h
    obtain ⟨⟨table, bitmap⟩, ⟨⟨rows, marked⟩, hrows, hbuilt⟩, ⟨later, last⟩, hlater, h⟩ := h
    simp only [Option.some.injEq, Prod.mk.injEq] at hbuilt h
    obtain ⟨rfl, rfl⟩ := hbuilt
    obtain ⟨rfl, rfl⟩ := h
    have hlength := builder_rows_length _ hrows
    have htabled : Tabled { m with
        bitmapSwap := marked
        allPageTables := m.allPageTables++[⟨m.pageTablesCounter, rows, (i : ℤ)⟩]
        pageTablesCounter := m.pageTablesCounter+1 } := by
      refine ⟨fun t built hbuilt => ?_, by simp [ht.counter]⟩
      rcases Nat.lt_or_ge t m.allPageTables.length with hlt | hge
      · exact ht.ids t built (by simpa [List.getElem?_append_left hlt] using hbuilt)
      · have hbuilt' := hbuilt
        rw [List.getElem?_append_right hge, List.getElem?_singleton] at hbuilt'
        split at hbuilt'
        · obtain rfl := Option.some.inj hbuilt'
          rw [show t = m.allPageTables.length by omega]
          exact ht.counter
        · simp at hbuilt'
    have hbuilds := ih (i := i+1) htabled (by exact_mod_cast hlater)
    have hone : (m.allPageTables++[PageTable.mk m.pageTablesCounter rows (i : ℤ)]).length =
        m.allPageTables.length+1 := by simp
    refine ⟨hbuilds.tabled, ?_, fun t hlt => ?_, fun k built hbuilt => ?_⟩
    · rw [hbuilds.longer, List.length_cons]
      simp only [hone]
      omega
    · rw [hbuilds.old t (by simp only [hone]; omega)]
      exact List.getElem?_append_left hlt
    · cases k with
      | zero =>
        simp only [List.getElem?_cons_zero, Option.some.injEq] at hbuilt
        subst hbuilt
        refine ⟨by simp [ht.counter], ⟨m.pageTablesCounter, rows, i⟩, ?_, ⟨rfl, rfl, hlength⟩⟩
        rw [Nat.add_zero, hbuilds.old _ (by simp)]
        simp
      | succ k =>
        rw [List.getElem?_cons_succ] at hbuilt
        obtain ⟨hindex, table, htable, hof⟩ := hbuilds.added k built hbuilt
        simp only [hone] at hindex htable
        rw [show m.allPageTables.length+1+k = m.allPageTables.length+(k+1) by omega] at hindex htable
        rw [show i+1+k = i+(k+1) by omega] at hof
        exact ⟨hindex, table, htable, hof⟩

theorem init_process_structures_builds {m m' : Memory} {pcb answer : Pcb} (ht : Tabled m)
    (h : initProcessStructures cfg m pcb = some (answer, m')) :
    ∃ segments, answer = { pcb with segmentTable := segments } ∧ Builds cfg m m' 0 segments := by
  obtain ⟨segments, hsegments, rfl⟩ := init_process_some h
  have hbuilds : Builds cfg (createClockStructure m pcb.processId) m' 0 segments := by
    have htabled : Tabled (createClockStructure m pcb.processId) := ⟨ht.ids, ht.counter⟩
    apply init_segments_builds pcb.segmentTable htabled
    exact_mod_cast hsegments
  exact ⟨segments, rfl, hbuilds.tabled, hbuilds.longer, hbuilds.old, hbuilds.added⟩

theorem site_step_tabled (s : Site) (q : Request) (s' : Site) (ht : Tabled s.memory)
    (h : siteStep cfg s q = some s') : Tabled s'.memory := by
  obtain ⟨request, m', answer, rfl, hm', rfl⟩ | ⟨pcb, built, m', rfl, hinit, rfl⟩ |
    ⟨pcb, sn, pn, m', answer, rfl, hm', rfl⟩ | ⟨pcb, m', rfl, hdelete, rfl⟩ := site_step_cases h
  · exact (attend_cpu_tables ht hm').tabled ht
  · obtain ⟨segments, -, hbuilds⟩ := init_process_structures_builds ht hinit
    exact hbuilds.tabled
  · exact (request_page_fault_tables hm').tabled ht
  · exact (delete_process_tables hdelete).tabled ht

/-- Whatever is asked, in whatever order. -/
theorem run_tabled (ram swap : ℕ → UInt8) (requests : List Request) (s : Site)
    (h : run (siteStep cfg) (boot cfg ram swap) requests = some s) : Tabled s.memory :=
  invariant_run (siteStep cfg) (fun s => Tabled s.memory) site_step_tabled requests _ s
    ⟨by simp [boot, initMemory], rfl⟩ h

end Builds

end Geck.PageTables
