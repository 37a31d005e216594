import Geck.MemoryAccounting

/-!
# Slots given to a new process and returned by a deleted one

The search for a clear bit is bounded by the number of swap pages for either
bitmap. Building page tables takes one clear slot for each row; deletion walks
the rows of the segment table and clears what they hold.
-/

set_option autoImplicit false

namespace Geck.MemoryAllocation
open Geck.BlockStore Geck.SharedPcb Geck.MemoryState Geck.MemoryPaging
open Geck.MemoryReplacement Geck.MemoryAccounting

def Clear (b : List Bool) (i : ℤ) : Prop := listGet b i = some false

theorem clear_iff {b : List Bool} {i : ℤ} : Clear b i ↔ (0 ≤ i ∧ i < b.length) ∧ ¬Marked b i := by
  constructor
  · intro h
    refine ⟨list_get_lt h, ?_⟩
    simp [Marked, (show listGet b i = some false from h)]
  · rintro ⟨⟨h0, hi⟩, hm⟩
    have hlt : i.toNat < b.length := by omega
    simpa [Clear, Marked, listGet, h0, List.getElem?_eq_getElem hlt] using hm

theorem find_page_free_from (b : List Bool) (n i j : ℕ) (hij : i ≤ j) (hj : j < i+n)
    (hc : Clear b j) : ∃ f : ℕ, findPageFreeFrom b n i = some f ∧ Clear b f ∧ f ≤ j := by
  induction n generalizing i with
  | zero => omega
  | succ n ih =>
    have hlen := (clear_iff.mp hc).1.2
    have hi : i < b.length := by omega
    simp only [findPageFreeFrom, list_get_nat, List.getElem?_eq_getElem hi, Option.bind_eq_bind,
      Option.bind_some]
    by_cases hb : b[i] = true
    · have hne : i ≠ j := by
        rintro rfl
        simp [Clear, list_get_nat, List.getElem?_eq_getElem hi, hb] at hc
      simpa [hb] using ih (i+1) (by omega) (by omega)
    · refine ⟨i, by simp [hb], ?_, hij⟩
      simpa [Clear, list_get_nat, List.getElem?_eq_getElem hi] using hb

theorem find_page_free_clear (cfg : MemoryConfig) (b : List Bool) (j : ℕ) (hj : j < swapPages cfg)
    (hc : Clear b j) : ∃ f : ℕ, findPageFree cfg b = some f ∧ Clear b f ∧ f ≤ j :=
  find_page_free_from b (swapPages cfg) 0 j (by omega) (by omega) hc

theorem clear_of_count (b : List Bool) (h : 0 < b.count false) :
    ∃ j : ℕ, j < b.length ∧ Clear b j := by
  obtain ⟨j, hj, hb⟩ := List.mem_iff_getElem.mp (List.count_pos_iff.mp h)
  exact ⟨j, hj, by simp [Clear, list_get_nat, List.getElem?_eq_getElem hj, hb]⟩

theorem write_bit_count {b b' : List Bool} {i : ℤ} (hc : Clear b i)
    (h : writeBit b i true = some b') : b.count false = b'.count false+1 := by
  obtain ⟨h0, hlt⟩ := write_bit_range h
  simp only [writeBit, h0, hlt, and_self, if_true, Option.some.injEq] at h
  have hi : i.toNat < b.length := by omega
  have hb : b[i.toNat] = false := by
    simpa [Clear, listGet, h0, List.getElem?_eq_getElem hi] using hc
  have hpos : 0 < b.count false := List.count_pos_iff.mpr (hb ▸ List.getElem_mem hi)
  subst h
  rw [List.count_set hi]
  simp [hb]
  omega

/-- `builder_page_table` turned the swap bitmap `b` into `b'` by giving each of
the rows a slot that was free. -/
structure Allocated (b : List Bool) (rows : List PageTableRow) (b' : List Bool) : Prop where
  fresh : ∀ y ∈ rows, ¬Marked b y.swapPosition
  nodup : (rows.map PageTableRow.swapPosition).Nodup
  marks : ∀ s, Marked b' s ↔ Marked b s ∨ ∃ y ∈ rows, y.swapPosition = s
  unloaded : ∀ y ∈ rows, y.presence = false ∧ y.modified = false
  length : b'.length = b.length
  free : b.count false = b'.count false+rows.length

theorem builder_rows_allocates (cfg : MemoryConfig) (n : ℕ) (b : List Bool)
    (hlen : b.length ≤ swapPages cfg) (hfree : n ≤ b.count false) :
    ∃ rows b', builderRows cfg n b = some (rows, b') ∧ rows.length = n ∧ Allocated b rows b' := by
  induction n generalizing b with
  | zero =>
    exact ⟨[], b, rfl, rfl, by simp, by simp, by simp, by simp, rfl, rfl⟩
  | succ n ih =>
    obtain ⟨j, hj, hcj⟩ := clear_of_count b (by omega)
    obtain ⟨f, hf, hcf, _⟩ := find_page_free_clear cfg b j (hj.trans_le hlen) hcj
    obtain ⟨⟨h0, hlt⟩, hun⟩ := clear_iff.mp hcf
    obtain ⟨b₁, hb₁⟩ := write_bit_total b f true h0 hlt
    have hcount := write_bit_count hcf hb₁
    have hlen₁ := write_bit_length hb₁
    have hmark := write_bit_marked hb₁
    obtain ⟨rows, b', hr, hn, ha⟩ := ih b₁ (hlen₁.trans_le hlen) (by omega)
    have hne : ∀ y ∈ rows, y.swapPosition ≠ f := by
      intro y hy hs
      apply ha.fresh y hy
      rw [hs, hmark]
      simp
    refine ⟨emptyRow f::rows, b', by simp [builderRows, hf, hb₁, hr], by simp [hn], ?_, ?_, ?_, ?_,
      ha.length.trans hlen₁, ?_⟩
    · intro y hy
      obtain rfl | hy := List.mem_cons.mp hy
      · exact hun
      · have := ha.fresh y hy
        rw [hmark, if_neg (hne y hy)] at this
        exact this
    · rw [List.map_cons, List.nodup_cons]
      refine ⟨?_, ha.nodup⟩
      rintro hmem
      obtain ⟨y, hy, hs⟩ := List.mem_map.mp hmem
      exact hne y hy hs
    · intro s
      rw [ha.marks, hmark]
      by_cases hs : s = f
      · subst hs
        simp [emptyRow]
      · have hs' : f ≠ s := fun h => hs h.symm
        simp [hs, hs', emptyRow]
    · intro y hy
      obtain rfl | hy := List.mem_cons.mp hy
      · exact ⟨rfl, rfl⟩
      · exact ha.unloaded y hy
    · have := ha.free
      simp only [List.length_cons]
      omega

def addTable (m : Memory) (table : PageTable) (bitmap : List Bool) : Memory :=
  { m with
    bitmapSwap := bitmap
    allPageTables := m.allPageTables++[table]
    pageTablesCounter := m.pageTablesCounter+1 }

theorem row_add_old (m : Memory) (table : PageTable) (bitmap : List Bool) (r : PageRef)
    (hr : r.table < m.allPageTables.length) : row (addTable m table bitmap) r = row m r := by
  simp [row, addTable, List.getElem?_append_left hr]

theorem row_add_new (m : Memory) (table : PageTable) (bitmap : List Bool) (r : PageRef)
    (y : PageTableRow) (hr : m.allPageTables.length ≤ r.table)
    (hy : row (addTable m table bitmap) r = some y) :
    r.table = m.allPageTables.length ∧ table.pagesList[r.page]? = some y := by
  simp only [row, addTable, List.getElem?_append_right hr] at hy
  cases hd : r.table-m.allPageTables.length with
  | zero =>
    rw [hd] at hy
    exact ⟨by omega, by simpa using hy⟩
  | succ n =>
    rw [hd] at hy
    simp at hy

/-- The tables and the slots of the live pages, whatever is in main memory. -/
structure Slotted (m : Memory) (live : Live) : Prop where
  ids : ∀ (i : ℕ) t, m.allPageTables[i]? = some t → t.id = i
  counter : m.pageTablesCounter = m.allPageTables.length
  inRange : ∀ pid segments, live pid = some segments →
    ∀ i ∈ segments.map Segment.indexPage, 0 ≤ i ∧ i < m.allPageTables.length
  disjoint : ∀ p q t, Owns live p t → Owns live q t → p = q
  slotMarked : ∀ p r x, LiveRow m live p r x → Marked m.bitmapSwap x.swapPosition
  slotUnique : ∀ p q r r' x y, LiveRow m live p r x → LiveRow m live q r' y →
    x.swapPosition = y.swapPosition → r = r'

theorem holdings_slotted {cfg : MemoryConfig} {m : Memory} {live : Live} (h : Holdings cfg m live) :
    Slotted m live :=
  ⟨h.ids, h.counter, h.inRange, h.disjoint, h.slotMarked, h.slotUnique⟩

theorem slotted_owns_lt {m : Memory} {live : Live} (h : Slotted m live) {p : ℤ} {t : ℕ}
    (ho : Owns live p t) : t < m.allPageTables.length := by
  obtain ⟨segments, hl, hmem⟩ := ho
  have := (h.inRange p segments hl t hmem).2
  omega

theorem owns_lt {cfg : MemoryConfig} {m : Memory} {live : Live} (h : Holdings cfg m live) {p : ℤ}
    {t : ℕ} (ho : Owns live p t) : t < m.allPageTables.length :=
  slotted_owns_lt (holdings_slotted h) ho

theorem owns_add (live : Live) (pid : ℤ) (done : List Segment) {segment : Segment} {t : ℕ}
    (hs : segment.indexPage = t) (p : ℤ) (u : ℕ) :
    Owns (Function.update live pid (some (done++[segment]))) p u ↔
      (p = pid ∧ u = t) ∨ Owns (Function.update live pid (some done)) p u := by
  unfold Owns
  by_cases hp : p = pid
  · subst hp
    simp [hs, or_comm, eq_comm]
  · simp [hp]

section AddTable
variable {m : Memory} {live : Live} {pid : ℤ} {done : List Segment}
  (hs : Slotted m (Function.update live pid (some done))) (table : PageTable) (bitmap : List Bool)
  {segment : Segment} (hseg : segment.indexPage = m.pageTablesCounter)
include hs hseg

/-- A row is one of the new table or one that was there. -/
theorem add_table_row {p : ℤ} {r : PageRef} {y : PageTableRow}
    (hy : LiveRow (addTable m table bitmap)
      (Function.update live pid (some (done++[segment]))) p r y) :
    (p = pid ∧ r.table = m.allPageTables.length ∧ table.pagesList[r.page]? = some y) ∨
      LiveRow m (Function.update live pid (some done)) p r y := by
  obtain ⟨rfl, ht⟩ | ho := (owns_add live pid done (hseg.trans hs.counter) p r.table).mp hy.1
  · exact Or.inl ⟨rfl, row_add_new m table bitmap r y ht.ge hy.2⟩
  · exact Or.inr ⟨ho, (row_add_old m table bitmap r (slotted_owns_lt hs ho)) ▸ hy.2⟩

theorem add_table_old {p : ℤ} {r : PageRef} {y : PageTableRow}
    (hy : LiveRow m (Function.update live pid (some done)) p r y) :
    LiveRow (addTable m table bitmap) (Function.update live pid (some (done++[segment]))) p r y :=
  ⟨(owns_add live pid done (hseg.trans hs.counter) p r.table).mpr (Or.inr hy.1),
    (row_add_old m table bitmap r (slotted_owns_lt hs hy.1)).trans hy.2⟩

theorem add_table_new {i : ℕ} {y : PageTableRow} (hy : table.pagesList[i]? = some y) :
    LiveRow (addTable m table bitmap) (Function.update live pid (some (done++[segment]))) pid
      ⟨m.allPageTables.length, i⟩ y :=
  ⟨(owns_add live pid done (hseg.trans hs.counter) pid _).mpr (Or.inl ⟨rfl, rfl⟩),
    by simp [row, addTable, hy]⟩

/-- A table for the next segment of a process being initialised. -/
theorem slotted_add_table (hid : table.id = m.pageTablesCounter)
    (ha : Allocated m.bitmapSwap table.pagesList bitmap) :
    Slotted (addTable m table bitmap) (Function.update live pid (some (done++[segment]))) := by
  have hcount := hs.counter
  have hown (p : ℤ) (u : ℕ) := owns_add live pid done (hseg.trans hcount) p u
  have back {p r y} (hy : LiveRow (addTable m table bitmap)
      (Function.update live pid (some (done++[segment]))) p r y) :=
    add_table_row hs table bitmap hseg hy
  have unshared {p r y} {i : ℕ} {z} (hy : LiveRow m (Function.update live pid (some done)) p r y)
      (hz : table.pagesList[i]? = some z) : y.swapPosition ≠ z.swapPosition := fun he =>
    ha.fresh z (List.mem_of_getElem? hz) (he ▸ hs.slotMarked p r y hy)
  refine ⟨fun i t ht => ?_, by simp [addTable, hcount], fun p segments hl i hi => ?_,
    fun p q u hpu hqu => ?_, fun p r y hy => ?_, fun p q r r' y z hy hz he => ?_⟩
  · simp only [addTable] at ht
    by_cases hi : i < m.allPageTables.length
    · rw [List.getElem?_append_left hi] at ht
      exact hs.ids i t ht
    · rw [List.getElem?_append_right (by omega)] at ht
      cases hd : i-m.allPageTables.length with
      | zero =>
        obtain rfl : table = t := by simpa [hd] using ht
        rw [hid, hcount]
        omega
      | succ n => simp [hd] at ht
  · simp only [addTable, List.length_append, List.length_singleton, Nat.cast_add, Nat.cast_one]
    by_cases hp : p = pid
    · subst hp
      obtain rfl : done++[segment] = segments := by simpa using hl
      rw [List.map_append, List.mem_append] at hi
      obtain hi | hi := hi
      · have := hs.inRange p done (by simp) i hi
        omega
      · have : i = segment.indexPage := by simpa using hi
        omega
    · have := hs.inRange p segments (by simpa [hp] using hl) i hi
      omega
  · obtain ⟨rfl, hu⟩ | hpu := (hown p u).mp hpu <;> obtain ⟨rfl, hu'⟩ | hqu := (hown q u).mp hqu
    · rfl
    · have := slotted_owns_lt hs hqu
      omega
    · have := slotted_owns_lt hs hpu
      omega
    · exact hs.disjoint p q u hpu hqu
  · obtain ⟨_, _, hy⟩ | hy := back hy
    · exact (ha.marks _).mpr (Or.inr ⟨y, List.mem_of_getElem? hy, rfl⟩)
    · exact (ha.marks _).mpr (Or.inl (hs.slotMarked p r y hy))
  · obtain ⟨_, ht, hy⟩ | hy := back hy <;> obtain ⟨_, ht', hz⟩ | hz := back hz
    · obtain ⟨t, i⟩ := r
      obtain ⟨t', j⟩ := r'
      simp only at ht ht' hy hz
      have hij : i = j := by
        have hi := (List.getElem?_eq_some_iff.mp hy).1
        refine (List.getElem?_inj (by simpa using hi)
        ha.nodup).mp ?_
        simp [hy, hz, he]
      rw [ht, ht', hij]
    · exact absurd he.symm (unshared hz hy)
    · exact absurd he (unshared hy hz)
    · exact hs.slotUnique p q r r' y z hy hz he

end AddTable

theorem holdings_add_table {cfg : MemoryConfig} {m : Memory} {live : Live} {pid : ℤ}
    {done : List Segment} (hold : Holdings cfg m (Function.update live pid (some done)))
    (table : PageTable) (bitmap : List Bool) (segment : Segment)
    (hid : table.id = m.pageTablesCounter) (hseg : segment.indexPage = m.pageTablesCounter)
    (ha : Allocated m.bitmapSwap table.pagesList bitmap) :
    Holdings cfg (addTable m table bitmap)
      (Function.update live pid (some (done++[segment]))) := by
  have hs := holdings_slotted hold
  have hslots := slotted_add_table hs table bitmap hseg hid ha
  have hcount := hold.counter
  have back {p r y} (hy : LiveRow (addTable m table bitmap)
      (Function.update live pid (some (done++[segment]))) p r y) :=
    add_table_row hs table bitmap hseg hy
  have forth {p r y} (hy : LiveRow m (Function.update live pid (some done)) p r y) :=
    add_table_old hs table bitmap hseg hy
  have unloaded {i : ℕ} {y} (hy : table.pagesList[i]? = some y) : y.presence = false :=
    (ha.unloaded y (List.mem_of_getElem? hy)).1
  refine ⟨hslots.ids, hslots.counter, hslots.inRange, hslots.disjoint, ?_, hold.memoryLength,
    ha.length.trans hold.swapLength, ?_, ?_, ?_, hslots.slotMarked, ?_, hslots.slotUnique⟩
  · intro p segments hl
    by_cases hp : p = pid
    · subst hp
      obtain rfl : done++[segment] = segments := by simpa using hl
      rw [List.map_append, List.nodup_append]
      refine ⟨hold.injective p done (by simp), by simp, ?_⟩
      intro a hadone b hb
      have := (hold.inRange p done (by simp) a hadone).2
      have : b = segment.indexPage := by simpa using hb
      omega
    · exact hold.injective p segments (by simpa [hp] using hl)
  · intro p r y hy hp
    obtain ⟨_, _, hy⟩ | hy := back hy
    · simp [unloaded hy] at hp
    · exact hold.frameMarked p r y hy hp
  · intro f hf
    obtain ⟨p, r, y, hy, h⟩ := hold.frameHeld f hf
    exact ⟨p, r, y, forth hy, h⟩
  · intro p q r r' y z hy hz hpy hpz hf
    obtain ⟨_, _, hy⟩ | hy := back hy
    · simp [unloaded hy] at hpy
    obtain ⟨_, _, hz⟩ | hz := back hz
    · simp [unloaded hz] at hpz
    exact hold.frameUnique p q r r' y z hy hz hpy hpz hf
  · intro s hmark
    obtain hmark | ⟨y, hy, he⟩ := (ha.marks s).mp hmark
    · obtain ⟨p, r, y, hy, h⟩ := hold.slotHeld s hmark
      exact ⟨p, r, y, forth hy, h⟩
    · obtain ⟨i, hi⟩ := List.mem_iff_getElem?.mp hy
      exact ⟨pid, ⟨m.allPageTables.length, i⟩, y, add_table_new hs table bitmap hseg hi, he⟩

/-- The pages the tables of a new process need. -/
def pagesNeeded (cfg : MemoryConfig) (segments : List Segment) : ℕ :=
  (segments.map fun s => (calculateFramesOfSegment cfg s.size).toNat).sum

/-- `m'` is `m` with tables for a new process added behind the others. -/
structure Extended (m m' : Memory) (segments : List Segment) : Prop where
  longer : m.allPageTables.length ≤ m'.allPageTables.length
  old : ∀ r, r.table < m.allPageTables.length → row m' r = row m r
  added : ∀ r y, m.allPageTables.length ≤ r.table → row m' r = some y →
    y.presence = false ∧ y.modified = false
  indexes : ∀ i ∈ segments.map Segment.indexPage, (m.allPageTables.length : ℤ) ≤ i
  ram : m'.principalMemory = m.principalMemory
  swap : m'.swapFile = m.swapFile
  memoryBits : m'.bitmapMemory = m.bitmapMemory
  clocks : m'.clockStructures = m.clockStructures

theorem init_segments_extends (cfg : MemoryConfig) (pid : ℤ) (live : Live) (rest : List Segment)
    (i : ℤ) (m : Memory) (done : List Segment)
    (hold : Holdings cfg m (Function.update live pid (some done)))
    (hfree : pagesNeeded cfg rest ≤ m.bitmapSwap.count false) :
    ∃ segments m', initSegments cfg rest i m = some (segments, m') ∧ Extended m m' segments ∧
      Holdings cfg m' (Function.update live pid (some (done++segments))) := by
  induction rest generalizing i m done with
  | nil =>
    refine ⟨[], m, rfl, ⟨le_rfl, fun _ _ => rfl, ?_, by simp, rfl, rfl, rfl, rfl⟩,
      by simpa using hold⟩
    intro r y hr hy
    simp [row, List.getElem?_eq_none hr] at hy
  | cons segment rest ih =>
    simp only [pagesNeeded, List.map_cons, List.sum_cons] at hfree
    obtain ⟨rows, bitmap, hb, hn, ha⟩ := builder_rows_allocates cfg _ m.bitmapSwap hold.swapLength.le
      (by omega : (calculateFramesOfSegment cfg segment.size).toNat ≤ _)
    have hadd := holdings_add_table hold ⟨m.pageTablesCounter, rows, i⟩ bitmap
      { segment with indexPage := m.pageTablesCounter } rfl rfl ha
    obtain ⟨segments, m', hm', hext, hold'⟩ := ih (i+1) _ _ hadd (by
      have := ha.free
      simp only [addTable, pagesNeeded]
      omega)
    refine ⟨{ segment with indexPage := m.pageTablesCounter }::segments, m', ?_, ?_, ?_⟩
    · simp only [addTable] at hm'
      simp [initSegments, builderPageTable, hb, hm']
    · have hlen : (addTable m ⟨m.pageTablesCounter, rows, i⟩ bitmap).allPageTables.length =
          m.allPageTables.length+1 := by simp [addTable]
      refine ⟨by have := hext.longer; omega, ?_, ?_, ?_, hext.ram, hext.swap, hext.memoryBits,
        hext.clocks⟩
      · intro r hr
        exact (hext.old r (by omega)).trans (row_add_old m _ bitmap r hr)
      · intro r y hr hy
        by_cases hrt : r.table < m.allPageTables.length+1
        · rw [hext.old r (by omega)] at hy
          exact ha.unloaded y (List.mem_of_getElem? (row_add_new m _ bitmap r y hr hy).2)
        · exact hext.added r y (by omega) hy
      · intro j hj
        obtain rfl | hj := List.mem_cons.mp hj
        · exact hold.counter.ge
        · have := hext.indexes j hj
          omega
    · simpa using hold'

/-- The bitmaps lost exactly the frames and slots of the rows in `gone`. -/
structure Released (gone : PageTableRow → Prop) (b b' : List Bool × List Bool) : Prop where
  memory : ∀ f, Marked b'.1 f ↔
    Marked b.1 f ∧ ¬∃ y, gone y ∧ y.presence = true ∧ y.frameNumber = f
  swap : ∀ s, Marked b'.2 s ↔ Marked b.2 s ∧ ¬∃ y, gone y ∧ y.swapPosition = s
  memoryLength : b'.1.length = b.1.length
  swapLength : b'.2.length = b.2.length

theorem released_none (gone : PageTableRow → Prop) (b : List Bool × List Bool)
    (h : ∀ y, ¬gone y) : Released gone b b :=
  ⟨by simp [h], by simp [h], rfl, rfl⟩

theorem released_trans {P Q R : PageTableRow → Prop} {b b' b'' : List Bool × List Bool}
    (h : Released P b b') (h' : Released Q b' b'') (hR : ∀ y, R y ↔ P y ∨ Q y) :
    Released R b b'' := by
  refine ⟨fun f => ?_, fun s => ?_, h'.memoryLength.trans h.memoryLength,
    h'.swapLength.trans h.swapLength⟩
  · rw [h'.memory, h.memory, and_assoc, ← not_or]
    simp only [hR, or_and_right, exists_or]
  · rw [h'.swap, h.swap, and_assoc, ← not_or]
    simp only [hR, or_and_right, exists_or]

/-- The frame and the slot of a row are indexes of the bitmaps. -/
def Returnable (b : List Bool × List Bool) (y : PageTableRow) : Prop :=
  (y.presence = true → 0 ≤ y.frameNumber ∧ y.frameNumber < b.1.length) ∧
    0 ≤ y.swapPosition ∧ y.swapPosition < b.2.length

theorem delete_row_releases (y : PageTableRow) (memory swap : List Bool)
    (hy : Returnable (memory, swap) y) :
    ∃ b', (∀ rows, deleteRows (y::rows) (memory, swap) = deleteRows rows b') ∧
      Released (· = y) (memory, swap) b' := by
  obtain ⟨swap', hs⟩ := write_bit_total swap y.swapPosition false hy.2.1 hy.2.2
  have hslot (s : ℤ) : Marked swap' s ↔ Marked swap s ∧ ¬∃ z, z = y ∧ z.swapPosition = s := by
    rw [write_bit_marked hs]
    simp only [exists_eq_left, eq_comm (a := s)]
    split <;> simp_all
  cases hp : y.presence with
  | false =>
    refine ⟨(memory, swap'), fun rows => by simp [deleteRows, hp, hs],
      ⟨fun f => ?_, hslot, rfl, write_bit_length hs⟩⟩
    simp [hp]
  | true =>
    obtain ⟨memory', hm⟩ := write_bit_total memory y.frameNumber false (hy.1 hp).1 (hy.1 hp).2
    refine ⟨(memory', swap'), fun rows => by simp [deleteRows, hp, hm, hs],
      ⟨fun f => ?_, hslot, write_bit_length hm, write_bit_length hs⟩⟩
    change Marked memory' f ↔ _
    rw [write_bit_marked hm]
    simp only [exists_eq_left, hp, true_and, eq_comm (a := f)]
    split <;> simp_all

theorem delete_rows_releases (rows : List PageTableRow) (b : List Bool × List Bool)
    (h : ∀ y ∈ rows, Returnable b y) :
    ∃ b', deleteRows rows b = some b' ∧ Released (· ∈ rows) b b' := by
  induction rows generalizing b with
  | nil => exact ⟨b, rfl, released_none _ b (by simp)⟩
  | cons y rows ih =>
    obtain ⟨memory, swap⟩ := b
    obtain ⟨b₁, hb₁, hr⟩ := delete_row_releases y memory swap (h y (by simp))
    obtain ⟨b', hb', hr'⟩ := ih b₁ fun z hz => by
      have := h z (List.mem_cons_of_mem y hz)
      simpa [Returnable, hr.memoryLength, hr.swapLength] using this
    exact ⟨b', (hb₁ rows).trans hb', released_trans hr hr' fun z => List.mem_cons⟩

theorem deleted_returnable (rows : List PageTableRow) {b b' : List Bool × List Bool}
    (h : deleteRows rows b = some b') : ∀ y ∈ rows, Returnable b y := by
  induction rows generalizing b with
  | nil => simp
  | cons y rows ih =>
    obtain ⟨memory, swap⟩ := b
    have hy : Returnable (memory, swap) y := by
      refine ⟨fun hp => ?_, ?_⟩
      · simp only [deleteRows, hp, if_true, Option.bind_eq_bind] at h
        obtain ⟨cleared, hcleared, -⟩ := Option.bind_eq_some_iff.mp h
        exact write_bit_range hcleared
      · cases hp : y.presence with
        | false =>
          simp only [deleteRows, hp, Option.bind_eq_bind] at h
          obtain ⟨cleared, hcleared, -⟩ := Option.bind_eq_some_iff.mp h
          exact write_bit_range hcleared
        | true =>
          simp only [deleteRows, hp, if_true, Option.bind_eq_bind, Option.bind_eq_some_iff] at h
          obtain ⟨_, -, cleared, hcleared, -⟩ := h
          exact write_bit_range hcleared
    obtain ⟨b₁, hb₁, hr⟩ := delete_row_releases y memory swap hy
    intro z hz
    obtain rfl | hz := List.mem_cons.mp hz
    · exact hy
    · have hrest := ih ((hb₁ rows).symm.trans h) z hz
      simpa [Returnable, hr.memoryLength, hr.swapLength] using hrest

/-- A deletion that ends has released what its rows held, whatever they held. -/
theorem delete_rows_released {rows : List PageTableRow} {b b' : List Bool × List Bool}
    (h : deleteRows rows b = some b') : Released (· ∈ rows) b b' := by
  obtain ⟨b₁, hb₁, hr⟩ := delete_rows_releases rows b (deleted_returnable rows h)
  obtain rfl := Option.some.inj (hb₁.symm.trans h)
  exact hr

/-- The rows of the tables a segment table names. -/
def RowsOf (m : Memory) (segments : List Segment) (y : PageTableRow) : Prop :=
  ∃ r, (r.table : ℤ) ∈ segments.map Segment.indexPage ∧ row m r = some y

theorem rows_of_cons {m : Memory} {segment : Segment} {t : ℕ} {table : PageTable}
    (ht : segment.indexPage = t) (htable : m.allPageTables[t]? = some table)
    (segments : List Segment) (y : PageTableRow) :
    RowsOf m (segment::segments) y ↔ y ∈ table.pagesList ∨ RowsOf m segments y := by
  have hrow : y ∈ table.pagesList ↔ ∃ i, row m ⟨t, i⟩ = some y := by
    simp [row, htable, List.mem_iff_getElem?]
  rw [hrow]
  unfold RowsOf
  simp only [List.map_cons, List.mem_cons, ht, or_and_right, exists_or]
  refine or_congr_left ⟨?_, ?_⟩
  · rintro ⟨⟨u, i⟩, hu, hy⟩
    obtain rfl : u = t := by simpa using hu
    exact ⟨i, hy⟩
  · rintro ⟨i, hy⟩
    exact ⟨⟨t, i⟩, rfl, hy⟩

theorem table_lookup {m : Memory} (hid : ∀ (i : ℕ) t, m.allPageTables[i]? = some t → t.id = i)
    (i : ℕ) (hi : i < m.allPageTables.length) : getPageTableByIndex m i = some i := by
  rw [getPageTableByIndex, List.findIdx?_eq_some_iff_getElem]
  refine ⟨hi, by simpa using hid i _ (List.getElem?_eq_getElem hi), fun j hj => ?_⟩
  have := hid j _ (List.getElem?_eq_getElem (hj.trans hi))
  simp [this]
  omega

theorem delete_segments_releases (m : Memory)
    (hid : ∀ (i : ℕ) t, m.allPageTables[i]? = some t → t.id = i) (segments : List Segment)
    (hrange : ∀ i ∈ segments.map Segment.indexPage, 0 ≤ i ∧ i < m.allPageTables.length)
    (b : List Bool × List Bool) (h : ∀ y, RowsOf m segments y → Returnable b y) :
    ∃ b', deleteSegments m segments b = some b' ∧ Released (RowsOf m segments) b b' := by
  induction segments generalizing b with
  | nil => exact ⟨b, rfl, released_none _ b (by simp [RowsOf])⟩
  | cons segment segments ih =>
    obtain ⟨h0, hlt⟩ := hrange segment.indexPage (by simp)
    obtain ⟨t, ht⟩ := Int.eq_ofNat_of_zero_le h0
    have htl : t < m.allPageTables.length := by omega
    have htable := List.getElem?_eq_getElem htl
    have hcons (y : PageTableRow) := rows_of_cons ht htable segments y
    obtain ⟨b₁, hb₁, hr₁⟩ := delete_rows_releases m.allPageTables[t].pagesList b fun y hy =>
      h y ((hcons y).mpr (Or.inl hy))
    obtain ⟨b', hb', hr'⟩ := ih (fun i hi => hrange i (List.mem_cons_of_mem _ hi)) b₁ fun y hy => by
      have := h y ((hcons y).mpr (Or.inr hy))
      simpa [Returnable, hr₁.memoryLength, hr₁.swapLength] using this
    refine ⟨b', ?_, released_trans hr₁ hr' hcons⟩
    simp [deleteSegments, ht, table_lookup hid t htl, htable, hb₁, hb']

theorem held_returnable {cfg : MemoryConfig} {m : Memory} {live : Live}
    (hold : Holdings cfg m live) {p : ℤ} {r : PageRef} {y : PageTableRow}
    (hy : LiveRow m live p r y) : Returnable (m.bitmapMemory, m.bitmapSwap) y :=
  ⟨fun hp => marked_range (hold.frameMarked p r y hy hp), marked_range (hold.slotMarked p r y hy)⟩

/-- `delete_process` succeeds on a live process and returns exactly what its
pages hold. -/
theorem delete_process_releases {cfg : MemoryConfig} {m : Memory} {live : Live}
    (hold : Holdings cfg m live) (pcb : Pcb) (hl : live pcb.processId = some pcb.segmentTable) :
    ∃ memory swap, deleteProcess m pcb =
        some { m with bitmapMemory := memory, bitmapSwap := swap } ∧
      Released (fun y => ∃ r, LiveRow m live pcb.processId r y)
        (m.bitmapMemory, m.bitmapSwap) (memory, swap) := by
  have hrows : RowsOf m pcb.segmentTable = fun y => ∃ r, LiveRow m live pcb.processId r y := by
    funext y
    simp only [RowsOf, LiveRow, Owns, hl, Option.some.injEq, exists_eq_left']
  obtain ⟨⟨memory, swap⟩, hb, hr⟩ := delete_segments_releases m hold.ids pcb.segmentTable
    (hold.inRange _ _ hl) (m.bitmapMemory, m.bitmapSwap) fun y hy => by
      rw [hrows] at hy
      obtain ⟨r, hy⟩ := hy
      exact held_returnable hold hy
  exact ⟨memory, swap, by simp [deleteProcess, hb], hrows ▸ hr⟩

theorem owns_delete (live : Live) (pid p : ℤ) (t : ℕ) :
    Owns (Function.update live pid none) p t ↔ p ≠ pid ∧ Owns live p t := by
  unfold Owns
  by_cases hp : p = pid
  · subst hp
    simp
  · simp [hp]

theorem live_row_delete {m : Memory} {live : Live} {pid : ℤ} (memory swap : List Bool) {p : ℤ}
    {r : PageRef} {y : PageTableRow} :
    LiveRow { m with bitmapMemory := memory, bitmapSwap := swap } (Function.update live pid none)
      p r y ↔ p ≠ pid ∧ LiveRow m live p r y := by
  unfold LiveRow
  rw [owns_delete, and_assoc]
  rfl

theorem live_after_delete {live : Live} {pid p : ℤ} {segments : List Segment}
    (hl : Function.update live pid none p = some segments) : live p = some segments := by
  by_cases hp : p = pid
  · simp [hp] at hl
  · simpa [hp] using hl

theorem slotted_delete {m : Memory} {live : Live} {pid : ℤ} (hs : Slotted m live)
    (memory swap : List Bool) (hr : ∀ s, Marked swap s ↔ Marked m.bitmapSwap s ∧
      ¬∃ y, (∃ r, LiveRow m live pid r y) ∧ y.swapPosition = s) :
    Slotted { m with bitmapMemory := memory, bitmapSwap := swap }
      (Function.update live pid none) := by
  refine ⟨hs.ids, hs.counter, fun p segments hl => hs.inRange p segments (live_after_delete hl), ?_,
    ?_, ?_⟩
  · intro p q t hp hq
    exact hs.disjoint p q t ((owns_delete live pid p t).mp hp).2
      ((owns_delete live pid q t).mp hq).2
  · intro p r y hy
    obtain ⟨hne, hy⟩ := (live_row_delete memory swap).mp hy
    refine (hr _).mpr ⟨hs.slotMarked p r y hy, ?_⟩
    rintro ⟨z, ⟨r', hz⟩, he⟩
    obtain rfl := hs.slotUnique pid p r' r z y hz hy he
    exact hne (hs.disjoint p pid r'.table hy.1 hz.1)
  · intro p q r r' y z hy hz
    exact hs.slotUnique p q r r' y z ((live_row_delete memory swap).mp hy).2
      ((live_row_delete memory swap).mp hz).2

theorem holdings_delete {cfg : MemoryConfig} {m : Memory} {live : Live} {pid : ℤ}
    (hold : Holdings cfg m live) (memory swap : List Bool)
    (hr : Released (fun y => ∃ r, LiveRow m live pid r y) (m.bitmapMemory, m.bitmapSwap)
      (memory, swap)) :
    Holdings cfg { m with bitmapMemory := memory, bitmapSwap := swap }
      (Function.update live pid none) := by
  have hslots := slotted_delete (holdings_slotted hold) memory swap hr.swap
  have hrow {p r y} := @live_row_delete m live pid memory swap p r y
  refine ⟨hslots.ids, hslots.counter, hslots.inRange, hslots.disjoint,
    fun p segments hl => hold.injective p segments (live_after_delete hl),
    hr.memoryLength.trans hold.memoryLength, hr.swapLength.trans hold.swapLength, ?_, ?_, ?_,
    hslots.slotMarked, ?_, hslots.slotUnique⟩
  · intro p r y hy hp
    obtain ⟨hne, hy⟩ := hrow.mp hy
    refine (hr.memory _).mpr ⟨hold.frameMarked p r y hy hp, ?_⟩
    rintro ⟨z, ⟨r', hz⟩, hpz, hf⟩
    obtain rfl := hold.frameUnique pid p r' r z y hz hy hpz hp hf
    exact hne (live_row_owner hold hy hz).1
  · intro f hf
    obtain ⟨hf, hnot⟩ := (hr.memory f).mp hf
    obtain ⟨p, r, y, hy, hp, hyf⟩ := hold.frameHeld f hf
    have hne : p ≠ pid := by
      rintro rfl
      exact hnot ⟨y, ⟨r, hy⟩, hp, hyf⟩
    exact ⟨p, r, y, hrow.mpr ⟨hne, hy⟩, hp, hyf⟩
  · intro p q r r' y z hy hz
    exact hold.frameUnique p q r r' y z (hrow.mp hy).2 (hrow.mp hz).2
  · intro s hs
    obtain ⟨hs, hnot⟩ := (hr.swap s).mp hs
    obtain ⟨p, r, y, hy, hys⟩ := hold.slotHeld s hs
    have hne : p ≠ pid := by
      rintro rfl
      exact hnot ⟨y, ⟨r, hy⟩, hys⟩
    exact ⟨p, r, y, hrow.mpr ⟨hne, hy⟩, hys⟩

end Geck.MemoryAllocation
