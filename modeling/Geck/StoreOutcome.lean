import Geck.PageGeometry

/-!
# Done or refused

`save_value_in_memory` walks the rows of a table for a present row with the frame
of the address and has a branch for a walk that finds none. The walk reads a row
before it tests the bound, so that branch is never taken: a store is done, or the
walk dereferences the row behind the last one.
-/

set_option autoImplicit false

namespace Geck.StoreOutcome
open Geck.LabelledRuns Geck.BlockStore Geck.SharedPcb Geck.MemoryState Geck.MemoryPaging
open Geck.MemoryHandlers Geck.MemoryAllocation Geck.MemoryFaults Geck.MemorySystem
open Geck.MemoryIsolation Geck.FlatMemory Geck.PageTables Geck.PageGeometry

/-- The row the walk looks for. -/
def InTheFrame (frame : ℤ) (x : PageTableRow) : Prop := x.frameNumber = frame ∧ x.presence = true

instance (frame : ℤ) (x : PageTableRow) : Decidable (InTheFrame frame x) :=
  inferInstanceAs (Decidable (_ ∧ _))

/-- The four bytes are in main memory and the row of the page is marked, it alone. -/
structure Written (cfg : MemoryConfig) (m m' : Memory) (a : ℤ) (value : UInt32) (v : PageRef) :
    Prop where
  inside : 0 ≤ a ∧ a+4 ≤ cfg.tamMemoria
  ram : m'.principalMemory = storeWord m.principalMemory a.toNat value
  marks : MarksOnly m m' v

/-- Nothing is stored, and the CPU is not told that it was. -/
structure Refused (m m' : Memory) (answer : CpuResponse) : Prop where
  ram : m'.principalMemory = m.principalMemory
  tables : m'.allPageTables = m.allPageTables
  answer : answer ≠ .movOutOk

/-- `MOV_OUT` in the table at position `t` is answered, done at a row in the frame or refused
for want of one. -/
def Settled (cfg : MemoryConfig) (m : Memory) (t : ℕ) (a : ℤ) (value : UInt32) (pid : ℤ) : Prop :=
  ∃ m' answer, attendCpu cfg m (.movOut a value t pid) = some (m', answer) ∧
    ((∃ i x, row m ⟨t, i⟩ = some x ∧ InTheFrame (a.tdiv cfg.tamPagina) x ∧
        Written cfg m m' a value ⟨t, i⟩) ∨
      ((∀ i x, row m ⟨t, i⟩ = some x → ¬InTheFrame (a.tdiv cfg.tamPagina) x) ∧
        Refused m m' answer))

section Walk
variable {frame : ℤ}

theorem search_row_some (rows : List PageTableRow) (base : ℕ) {i : ℕ}
    (h : searchRow frame rows base = some i) :
    ∃ j x, i = base+j ∧ rows[j]? = some x ∧ InTheFrame frame x := by
  induction rows generalizing base with
  | nil => simp [searchRow] at h
  | cons r rows ih =>
    unfold searchRow at h
    split at h
    · obtain ⟨j, x, rfl, hx, hin⟩ := ih (base+1) h
      exact ⟨j+1, x, by omega, hx, hin⟩
    · next hin =>
      rw [not_or, not_not, not_not] at hin
      exact ⟨0, r, (Option.some.inj h).symm, rfl, hin⟩

end Walk

section Stores
variable {cfg : MemoryConfig} {m : Memory} {t : ℕ} {table : PageTable}
  (htable : m.allPageTables[t]? = some table)
include htable

theorem rows_of_table (i : ℕ) : row m ⟨t, i⟩ = table.pagesList[i]? := by
  simp [row, htable]

variable (htabled : Tabled m)
include htabled

/-- A store that ends was done at the row where the walk stopped. -/
theorem save_value_written {m' : Memory} {a : ℤ} {value : UInt32}
    (h : saveValueInMemory cfg m a value t = some m') :
    ∃ i x, row m ⟨t, i⟩ = some x ∧ InTheFrame (a.tdiv cfg.tamPagina) x ∧
      Written cfg m m' a value ⟨t, i⟩ := by
  have hinside : 0 ≤ a ∧ a+4 ≤ cfg.tamMemoria := by
    simp only [saveValueInMemory, Option.bind_eq_bind, Option.bind_eq_some_iff] at h
    obtain ⟨_, -, _, -, _, -, h⟩ := h
    by_contra hout
    simp [hout] at h
  obtain ⟨u, table', i, hu, htable', hi, rfl⟩ := save_value_found htabled.ids h
  obtain rfl : t = u := by exact_mod_cast hu
  obtain rfl := Option.some.inj (htable.symm.trans htable')
  obtain ⟨j, x, rfl, hx, hin⟩ := search_row_some table.pagesList 0 hi
  rw [zero_add]
  exact ⟨j, x, (rows_of_table htable j).trans hx, hin, hinside, rfl,
    fun r => row_modify m ⟨t, j⟩ r _⟩

theorem save_value_done {a : ℤ} (value : UInt32) {i : ℕ} {x : PageTableRow}
    (hx : row m ⟨t, i⟩ = some x) (hin : InTheFrame (a.tdiv cfg.tamPagina) x)
    (hinside : 0 ≤ a ∧ a+4 ≤ cfg.tamMemoria) :
    ∃ m', saveValueInMemory cfg m a value t = some m' := by
  have hlt := (List.getElem?_eq_some_iff.mp htable).1
  have hfound := table_lookup htabled.ids t hlt
  obtain ⟨j, y, hj, hy, -⟩ :=
    search_row_finds 0 ((rows_of_table htable i).symm.trans hx) hin.1 hin.2
  refine Option.isSome_iff_exists.mp ?_
  simp [saveValueInMemory, hfound, htable, hj, hinside, modifyRow]

/-- A `MOV_OUT` is settled exactly when the table has a row in the frame and the four bytes
lie in main memory. -/
theorem settled_iff (a : ℤ) (value : UInt32) (pid : ℤ) :
    Settled cfg m t a value pid ↔
      (∃ x ∈ table.pagesList, InTheFrame (a.tdiv cfg.tamPagina) x) ∧
        0 ≤ a ∧ a+4 ≤ cfg.tamMemoria := by
  have hrow := rows_of_table htable
  constructor
  · rintro ⟨m', answer, h, -⟩
    have hstored := attend_mov_out_some h
    obtain ⟨i, x, hx, hin, hwritten⟩ := save_value_written htable htabled hstored
    exact ⟨⟨x, List.mem_of_getElem? ((hrow i).symm.trans hx), hin⟩, hwritten.inside⟩
  · rintro ⟨⟨x, hmem, hin⟩, hinside⟩
    obtain ⟨i, hi⟩ := List.mem_iff_getElem?.mp hmem
    obtain ⟨m', hm'⟩ := save_value_done htable htabled value ((hrow i).trans hi) hin hinside
    exact ⟨m', .movOutOk, by simp [attendCpu, hm'],
      Or.inl (save_value_written htable htabled hm')⟩

end Stores

/-- Whatever table a request finds in a state memory reaches, or in any other where tables
have their positions for ids. -/
theorem store_settled_iff (cfg : MemoryConfig) :
    (∀ ram swap requests s, run (siteStep cfg) (boot cfg ram swap) requests = some s →
      Tabled s.memory) ∧
    ∀ m, Tabled m → ∀ (t : ℕ) table, m.allPageTables[t]? = some table → ∀ a value pid,
      (Settled cfg m t a value pid ↔
        (∃ x ∈ table.pagesList, InTheFrame (a.tdiv cfg.tamPagina) x) ∧
          0 ≤ a ∧ a+4 ≤ cfg.tamMemoria) :=
  ⟨run_tabled, fun _ htabled _ _ htable => settled_iff htable htabled⟩

theorem store_settled_small : Settled smallConfig smallSite.memory 0 0 7 1 := by
  obtain ⟨hreached, hsettled⟩ := store_settled_iff smallConfig
  have htabled := hreached zeros zeros smallRequests smallSite small_site_reached
  have hhead : (smallSite.memory.allPageTables[0]?).any
      (fun table => ∃ x ∈ table.pagesList, InTheFrame 0 x) = true := by decide +kernel
  obtain ⟨table, htable, hrows⟩ := (Option.any_eq_true _ _).mp hhead
  exact (hsettled _ htabled 0 table htable 0 7 1).mpr ⟨by simpa using hrows, by decide, by decide⟩

/-- The frame of the address is free: the walk finds no row, and there is no answer. -/
theorem store_past_end : ¬Settled smallConfig smallSite.memory 0 12 7 1 := by
  have hnone : (attendCpu smallConfig smallSite.memory (.movOut 12 7 (0 : ℕ) 1)).isNone = true := by
    decide +kernel
  rintro ⟨m', answer, h, -⟩
  rw [h] at hnone
  simp at hnone

end Geck.StoreOutcome
