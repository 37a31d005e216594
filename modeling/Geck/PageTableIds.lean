import Geck.StoreOutcome

/-!
# Page table ids are positions

The ids that memory answers with are the positions of the tables it built, one
after the other from zero. A table found by its id is therefore put back where
it was found, and the store that puts it back changes no other table.
-/

set_option autoImplicit false

namespace Geck.PageTableIds
open Geck.LabelledRuns Geck.SharedPcb Geck.MemoryState Geck.MemoryPaging Geck.MemoryHandlers
open Geck.MemoryAccounting Geck.MemoryAllocation Geck.MemoryFaults Geck.MemorySystem
open Geck.MemoryIsolation Geck.PageTables Geck.StoreOutcome

/-- The ids in the segment table that memory answers with. -/
def handedOut (cfg : MemoryConfig) (s : Site) : Request → List ℤ
  | .kernel (.initProcessStructuresMemory pcb) =>
    match initProcessStructures cfg s.memory pcb with
    | some (answer, _) => answer.segmentTable.map Segment.indexPage
    | none => []
  | _ => []

def positions (m : Memory) : List ℤ := (List.range m.allPageTables.length).map fun t : ℕ => (t : ℤ)

/-- The table at `t` is the one that the id stands for. -/
structure Named (m : Memory) (index : ℤ) (t : ℕ) : Prop where
  found : getPageTableByIndex m index = some t
  table : ∃ table, m.allPageTables[t]? = some table ∧ table.id = index
  only : ∀ u other, m.allPageTables[u]? = some other → other.id = index → u = t

def marked (m : Memory) (page : PageRef) : Memory :=
  modifyRow m page fun x => { x with modified := true }

/-- Both lists stay as they are when the row and the table are put back. -/
def PutsBack (m : Memory) (index : ℤ) (t i : ℕ) : Prop :=
  ∃ table x, m.allPageTables[t]? = some table ∧ table.pagesList[i]? = some x ∧
    listReplace table.pagesList i x = table.pagesList ∧
    listReplace m.allPageTables index table = m.allPageTables

/-- A store marks one row of the table with that id, and that is all it does to the tables. -/
structure MarksOwn (m m' : Memory) (index : ℤ) (t i : ℕ) : Prop where
  named : Named m index t
  position : index = t
  back : PutsBack (marked m ⟨t, i⟩) index t i
  tables : m'.allPageTables = (marked m ⟨t, i⟩).allPageTables
  others : ∀ u, u ≠ t → m'.allPageTables[u]? = m.allPageTables[u]?

theorem list_replace_same {α : Type} {l : List α} {i : ℕ} {x : α} (h : l[i]? = some x) :
    listReplace l i x = l := by
  obtain ⟨hi, rfl⟩ := List.getElem?_eq_some_iff.mp h
  rw [listReplace, if_pos (Int.natCast_nonneg i), Int.toNat_natCast]
  exact List.set_getElem_self hi

section Tables
variable {m m' : Memory} (htabled : Tabled m)
include htabled

theorem named_position {t : ℕ} (ht : t < m.allPageTables.length) : Named m t t := by
  refine ⟨table_lookup htabled.ids t ht, ?_, fun u other hu hid => ?_⟩
  · have htable := List.getElem?_eq_getElem ht
    exact ⟨_, htable, htabled.ids t _ htable⟩
  · rw [htabled.ids u other hu] at hid
    exact_mod_cast hid

theorem named_of_positions {index : ℤ} (h : index ∈ positions m) : ∃ t, Named m index t := by
  obtain ⟨t, ht, rfl⟩ := List.mem_map.mp h
  exact ⟨t, named_position htabled (List.mem_range.mp ht)⟩

theorem save_value_marks_own {cfg : MemoryConfig} {a : ℤ} {value : UInt32} {index : ℤ}
    (h : saveValueInMemory cfg m a value index = some m') : ∃ t i, MarksOwn m m' index t i := by
  obtain ⟨t, table, i, rfl, htable, hi, rfl⟩ := save_value_found htabled.ids h
  obtain ⟨j, x, rfl, hx, -⟩ := search_row_some table.pagesList 0 hi
  rw [zero_add]
  have ht := (List.getElem?_eq_some_iff.mp htable).1
  have hmarked : (marked m ⟨t, j⟩).allPageTables[t]? = some { table with
      pagesList := table.pagesList.modify j fun x => { x with modified := true } } := by
    simp [marked, modifyRow, htable]
  have hrow : (table.pagesList.modify j fun x => { x with modified := true })[j]? =
      some { x with modified := true } := by
    simp [hx]
  refine ⟨t, j, named_position htabled ht, rfl, ?_, rfl, fun u hu => ?_⟩
  · exact ⟨_, _, hmarked, hrow, list_replace_same hrow, list_replace_same hmarked⟩
  · show (m.allPageTables.modify t _)[u]? = _
    simp [Ne.symm hu]

end Tables

section Runs
variable {cfg : MemoryConfig}

theorem built_positions {m m' : Memory} {segments : List Segment}
    (h : Builds cfg m m' 0 segments) :
    positions m++segments.map Segment.indexPage = positions m' := by
  have hindexes : segments.map Segment.indexPage =
      (List.range segments.length).map fun k : ℕ => ((m.allPageTables.length+k : ℕ) : ℤ) := by
    apply List.ext_getElem?
    intro k
    rw [List.getElem?_map, List.getElem?_map]
    cases hk : segments[k]? with
    | none => simpa using hk
    | some segment =>
      rw [List.getElem?_range (List.getElem?_eq_some_iff.mp hk).1]
      exact congrArg some (h.added k segment hk).1
  rw [positions, positions, h.longer, List.range_add, List.map_append, List.map_map, hindexes]
  rfl

/-- The ids that a request hands out are the positions of the tables it builds. -/
theorem step_positions (s : Site) (q : Request) (s' : Site) (ht : Tabled s.memory)
    (h : siteStep cfg s q = some s') :
    positions s.memory++handedOut cfg s q = positions s'.memory := by
  have hsame {m' : Memory} (htables : SameTables s.memory m') :
      positions s.memory++[] = positions m' := by
    rw [List.append_nil, positions, positions, shape_tables_length htables.shape]
  obtain ⟨request, m', answer, rfl, hm', rfl⟩ | ⟨pcb, built, m', rfl, hinit, rfl⟩ |
    ⟨pcb, sn, pn, m', answer, rfl, hm', rfl⟩ | ⟨pcb, m', rfl, hdelete, rfl⟩ := site_step_cases h
  · exact hsame (attend_cpu_tables ht hm')
  · obtain ⟨segments, rfl, hbuilds⟩ := init_process_structures_builds ht hinit
    simp only [handedOut, hinit]
    exact built_positions hbuilds
  · exact hsame (request_page_fault_tables hm')
  · exact hsame (delete_process_tables hdelete)

theorem run_positions (ram swap : ℕ → UInt8) (requests : List Request) (s : Site)
    (h : run (siteStep cfg) (boot cfg ram swap) requests = some s) :
    collected (siteStep cfg) (handedOut cfg) (boot cfg ram swap) requests = positions s.memory := by
  have hqueue := collected_queue (siteStep cfg) (fun s => Tabled s.memory)
    (fun s => positions s.memory) (handedOut cfg) (fun _ _ => []) site_step_tabled
    (fun s q s' ht h => step_positions s q s' ht h) requests _ s
    ⟨by simp [boot, initMemory], rfl⟩ h
  rw [collected_nothing] at hqueue
  exact hqueue

end Runs

/-- Whatever is asked of memory, in whatever order. -/
theorem ids_are_positions (cfg : MemoryConfig) (ram swap : ℕ → UInt8) (requests : List Request)
    (s : Site) (h : run (siteStep cfg) (boot cfg ram swap) requests = some s) :
    Tabled s.memory ∧
    collected (siteStep cfg) (handedOut cfg) (boot cfg ram swap) requests = positions s.memory ∧
    (∀ index ∈ collected (siteStep cfg) (handedOut cfg) (boot cfg ram swap) requests,
      ∃ t, Named s.memory index t) ∧
    ∀ a value index m', saveValueInMemory cfg s.memory a value index = some m' →
      ∃ t i, MarksOwn s.memory m' index t i := by
  have htabled := run_tabled ram swap requests s h
  have hpositions := run_positions ram swap requests s h
  refine ⟨htabled, hpositions, fun index hindex => ?_, fun _ _ _ _ => save_value_marks_own htabled⟩
  rw [hpositions] at hindex
  exact named_of_positions htabled hindex

/-- Two processes; a store in the table of the second leaves that of the first. -/
theorem ids_are_positions_small :
    collected (siteStep smallConfig) (handedOut smallConfig) (boot smallConfig zeros zeros)
      neighbours = [0, 1] ∧
    ∃ m' t i, saveValueInMemory smallConfig neighbourSite.memory 4 7 1 = some m' ∧
      MarksOwn neighbourSite.memory m' 1 t i ∧
      m'.allPageTables[0]? = neighbourSite.memory.allPageTables[0]? := by
  obtain ⟨-, hcollected, -, hstore⟩ := ids_are_positions smallConfig zeros zeros neighbours
    neighbourSite neighbour_site_reached
  have hpositions : positions neighbourSite.memory = [0, 1] := by decide +kernel
  have hsome : (saveValueInMemory smallConfig neighbourSite.memory 4 7 1).isSome = true := by
    decide +kernel
  obtain ⟨m', hm'⟩ := Option.isSome_iff_exists.mp hsome
  obtain ⟨t, i, hmarks⟩ := hstore 4 7 1 m' hm'
  have hother : 0 ≠ t := by
    have := hmarks.position
    omega
  exact ⟨hcollected.trans hpositions, m', t, i, hm', hmarks, hmarks.others 0 hother⟩

end Geck.PageTableIds
