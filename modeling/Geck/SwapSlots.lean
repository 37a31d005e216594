import Geck.PageTables
import Geck.FreeSearch

/-!
# Running out of swap

Building the tables of a process takes one slot after the other and notices an
exhausted swap only when the search fails, when slots, tables and the clock of
the process are already there. Nothing goes back. With enough slots every page
gets one of its own, in every state the kernel's requests lead to.
-/

set_option autoImplicit false

namespace Geck.SwapSlots
open Geck.LabelledRuns Geck.BlockStore Geck.SharedPcb Geck.MemoryState Geck.MemoryPaging
open Geck.MemoryHandlers Geck.MemoryReplacement Geck.MemoryAccounting Geck.MemoryAllocation
open Geck.MemoryFaults Geck.MemorySystem Geck.MemoryIsolation Geck.UpdateRules Geck.PageTables
open Geck.FreeSearch

/-- The kernel numbers a new process with a number of no live process, and ends a live one
with the segment table memory gave it. -/
def Promised (s : Site) : Request → Prop
  | .kernel (.initProcessStructuresMemory pcb) => s.live pcb.processId = none
  | .kernel (.endStructures pcb) => s.live pcb.processId = some pcb.segmentTable
  | _ => True

instance (s : Site) : ∀ q, Decidable (Promised s q)
  | .kernel (.initProcessStructuresMemory _) => inferInstanceAs (Decidable (_ = _))
  | .kernel (.endStructures _) => inferInstanceAs (Decidable (_ = _))
  | .kernel (.requestPageFault ..) => inferInstanceAs (Decidable True)
  | .cpu _ => inferInstanceAs (Decidable True)

/-- Slots of the swap file that are not taken, bit or no bit. -/
def freeSlots (cfg : MemoryConfig) (m : Memory) : ℕ :=
  ((List.range (swapPages cfg)).filter fun s => ¬Marked m.bitmapSwap (s : ℕ)).length

/-- Every page of the new process has a slot of the swap file that no other live page has. -/
structure SlotsGiven (cfg : MemoryConfig) (s : Site) (pcb answer : Pcb) (m' : Memory) : Prop where
  sizes : answer.segmentTable.map Segment.size = pcb.segmentTable.map Segment.size
  pages : ∀ segment ∈ answer.segmentTable,
    ∀ i < (calculateFramesOfSegment cfg segment.size).toNat,
      ∃ x, row m' ⟨segment.indexPage.toNat, i⟩ = some x ∧ InSlots cfg x.swapPosition ∧
        ∀ q r y, LiveRow m' (Function.update s.live pcb.processId (some answer.segmentTable)) q r y →
          y.swapPosition = x.swapPosition → r = ⟨segment.indexPage.toNat, i⟩

/-- Tables, counter, slots and clocks are what they were. -/
structure Undone (m m' : Memory) : Prop where
  swapBits : m'.bitmapSwap = m.bitmapSwap
  tables : m'.allPageTables = m.allPageTables
  counter : m'.pageTablesCounter = m.pageTablesCounter
  clocks : m'.clockStructures = m.clockStructures

/-- The request returns, with all slots given or with nothing changed for want of slots. -/
def SwapIntact (cfg : MemoryConfig) (s : Site) (pcb : Pcb) : Prop :=
  ∃ answer m', initProcessStructures cfg s.memory pcb = some (answer, m') ∧
    (SlotsGiven cfg s pcb answer m' ∨
      (freeSlots cfg s.memory < pagesNeeded cfg pcb.segmentTable ∧ Undone s.memory m'))

section Needs
variable {cfg : MemoryConfig}

/-- The search answers -1 or a clear bit. -/
theorem find_page_free_found {b : List Bool} (n i : ℕ) {p : ℤ}
    (h : findPageFreeFrom b n i = some p) : p = -1 ∨ Clear b p := by
  induction n generalizing i with
  | zero => exact Or.inl (Option.some.inj h).symm
  | succ n ih =>
    simp only [findPageFreeFrom, Option.bind_eq_bind, Option.bind_eq_some_iff] at h
    obtain ⟨bit, hbit, h⟩ := h
    cases bit with
    | true => exact ih (i+1) (by simpa using h)
    | false =>
      obtain rfl : (i : ℤ) = p := by simpa using h
      exact Or.inr hbit

/-- Tables that were built took a free slot for each row. -/
theorem builder_rows_needs (n : ℕ) {b b' : List Bool} {rows : List PageTableRow}
    (h : builderRows cfg n b = some (rows, b')) : b.count false = b'.count false+n := by
  induction n generalizing b rows with
  | zero =>
    simp only [builderRows, Option.some.injEq, Prod.mk.injEq] at h
    rw [h.2, Nat.add_zero]
  | succ n ih =>
    simp only [builderRows, Option.bind_eq_bind, Option.bind_eq_some_iff] at h
    obtain ⟨p, hp, b₁, hb₁, ⟨rest, last⟩, hrest, h⟩ := h
    simp only [Option.some.injEq, Prod.mk.injEq] at h
    obtain ⟨-, rfl⟩ := h
    have hclear : Clear b p := by
      obtain rfl | hclear := find_page_free_found _ _ hp
      · have := (write_bit_range hb₁).1
        omega
      · exact hclear
    rw [write_bit_count hclear hb₁, ih hrest]
    omega

theorem init_segments_needs (segments : List Segment) {i : ℤ} {m m' : Memory} {answer : List Segment}
    (h : initSegments cfg segments i m = some (answer, m')) :
    pagesNeeded cfg segments ≤ m.bitmapSwap.count false := by
  induction segments generalizing i m m' answer with
  | nil => simp [pagesNeeded]
  | cons segment rest ih =>
    simp only [initSegments, builderPageTable, Option.bind_eq_bind, Option.bind_eq_some_iff] at h
    obtain ⟨⟨table, bitmap⟩, ⟨⟨rows, marked⟩, hrows, hbuilt⟩, ⟨later, last⟩, hrest, -⟩ := h
    simp only [Option.some.injEq, Prod.mk.injEq] at hbuilt
    obtain ⟨-, rfl⟩ := hbuilt
    have hfirst := builder_rows_needs _ hrows
    have hlater := ih hrest
    simp only [pagesNeeded, List.map_cons, List.sum_cons] at hlater ⊢
    omega

/-- A process that got its tables had as many clear bits as pages. -/
theorem init_process_needs {m m' : Memory} {pcb answer : Pcb}
    (h : initProcessStructures cfg m pcb = some (answer, m')) :
    pagesNeeded cfg pcb.segmentTable ≤ m.bitmapSwap.count false := by
  obtain ⟨segments, hsegments, -⟩ := init_process_some h
  have hneeds := init_segments_needs pcb.segmentTable hsegments
  exact hneeds

end Needs

section Init
variable {cfg : MemoryConfig} {live : Live} {pid : ℤ}

/-- Enough slots build the tables of a process and keep every slot with one page. -/
theorem slotted_init_segments (segments : List Segment) (i : ℤ) (m : Memory) (done : List Segment)
    (hs : Slotted m (Function.update live pid (some done)))
    (hlen : m.bitmapSwap.length ≤ swapPages cfg)
    (hfree : pagesNeeded cfg segments ≤ m.bitmapSwap.count false) :
    ∃ answer m', initSegments cfg segments i m = some (answer, m') ∧
      Slotted m' (Function.update live pid (some (done++answer))) ∧
      m'.bitmapSwap.length = m.bitmapSwap.length ∧
      answer.map Segment.size = segments.map Segment.size := by
  induction segments generalizing i m done with
  | nil => exact ⟨[], m, rfl, by simpa using hs, rfl, rfl⟩
  | cons segment rest ih =>
    simp only [pagesNeeded, List.map_cons, List.sum_cons] at hfree
    obtain ⟨rows, bitmap, hb, hn, ha⟩ := builder_rows_allocates cfg _ m.bitmapSwap hlen
      (by omega : (calculateFramesOfSegment cfg segment.size).toNat ≤ _)
    have hfirst : { segment with indexPage := m.pageTablesCounter }.indexPage =
      m.pageTablesCounter := rfl
    have hadd := slotted_add_table hs ⟨m.pageTablesCounter, rows, i⟩ bitmap hfirst rfl ha
    obtain ⟨answer, m', hm', hs', hlen', hsizes⟩ := ih (i+1) _ _ hadd (ha.length.trans_le hlen) (by
      have := ha.free
      simp only [addTable, pagesNeeded]
      omega)
    refine ⟨{ segment with indexPage := m.pageTablesCounter }::answer, m', ?_, by simpa using hs',
      hlen'.trans ha.length, by simp [hsizes]⟩
    simp only [addTable] at hm'
    simp [initSegments, builderPageTable, hb, hm']

theorem slotted_begins {m : Memory} (hs : Slotted m live) (hnew : live pid = none) :
    Slotted (createClockStructure m pid) (Function.update live pid (some [])) := by
  have hrow {p r x} : LiveRow m (Function.update live pid (some [])) p r x ↔ LiveRow m live p r x :=
    and_congr_left fun _ => update_live_none live pid hnew p r.table
  refine ⟨hs.ids, hs.counter, fun p segments hl => ?_, ?_, ?_, ?_⟩
  · by_cases hp : p = pid
    · obtain rfl : [] = segments := by simpa [hp] using hl
      simp
    · exact hs.inRange p segments (by simpa [hp] using hl)
  · simpa only [update_live_none live pid hnew] using hs.disjoint
  · exact fun p r x hx => hs.slotMarked p r x (hrow.mp hx)
  · exact fun p q r r' x y hx hy => hs.slotUnique p q r r' x y (hrow.mp hx) (hrow.mp hy)

theorem slotted_init {m : Memory} {pcb : Pcb} (hs : Slotted m live)
    (hlen : m.bitmapSwap.length ≤ swapPages cfg) (hnew : live pcb.processId = none)
    (hfree : pagesNeeded cfg pcb.segmentTable ≤ m.bitmapSwap.count false) :
    ∃ answer m', initProcessStructures cfg m pcb = some ({ pcb with segmentTable := answer }, m') ∧
      Slotted m' (Function.update live pcb.processId (some answer)) ∧
      m'.bitmapSwap.length = m.bitmapSwap.length ∧
      answer.map Segment.size = pcb.segmentTable.map Segment.size := by
  obtain ⟨answer, m', hm', hs', hlen', hsizes⟩ := slotted_init_segments pcb.segmentTable 0 _ []
    (slotted_begins hs hnew) hlen hfree
  exact ⟨answer, m', by simp [initProcessStructures, hm'], by simpa using hs', hlen', hsizes⟩

end Init

/-- The slots of the rows, the bitmap of swap and the tables are what they were. -/
structure SlotsKept (m m' : Memory) : Prop where
  rows : ∀ r, (row m' r).map PageTableRow.swapPosition = (row m r).map PageTableRow.swapPosition
  swapBits : m'.bitmapSwap = m.bitmapSwap
  tables : SameTables m m'

section Requests
variable {cfg : MemoryConfig} {m m' : Memory} {live : Live}

theorem slots_kept : KeptByUpdates SlotsKept where
  refl _ := ⟨fun _ => rfl, rfl, ⟨rfl, rfl⟩⟩
  trans h h' := ⟨fun r => (h'.rows r).trans (h.rows r), h'.swapBits.trans h.swapBits,
    h.tables.trans h'.tables⟩
  row m v f hf := by
    refine ⟨fun r => ?_, rfl, tables_modified m v f⟩
    rw [row_modify]
    split
    · cases row m r with
      | none => rfl
      | some x => simp [hf x]
    · rfl
  ram _ _ := ⟨fun _ => rfl, rfl, ⟨rfl, rfl⟩⟩
  swapFile _ _ := ⟨fun _ => rfl, rfl, ⟨rfl, rfl⟩⟩
  memoryBits _ _ _ := ⟨fun _ => rfl, rfl, ⟨rfl, rfl⟩⟩

theorem slotted_kept (h : SlotsKept m m') (hs : Slotted m live) : Slotted m' live := by
  have back {p r y} (hy : LiveRow m' live p r y) :
      ∃ x, LiveRow m live p r x ∧ x.swapPosition = y.swapPosition := by
    have hrow := h.rows r
    rw [hy.2] at hrow
    obtain ⟨x, hx, hslot⟩ := Option.map_eq_some_iff.mp hrow.symm
    exact ⟨x, ⟨hy.1, hx⟩, hslot⟩
  obtain ⟨hids, hcounter⟩ := h.tables.tabled ⟨hs.ids, hs.counter⟩
  refine ⟨hids, hcounter, ?_, hs.disjoint, fun p r y hy => ?_, fun p q r r' y z hy hz he => ?_⟩
  · rw [shape_tables_length h.tables.shape]
    exact hs.inRange
  · obtain ⟨x, hx, hslot⟩ := back hy
    rw [h.swapBits, ← hslot]
    exact hs.slotMarked p r x hx
  · obtain ⟨x, hx, hslot⟩ := back hy
    obtain ⟨x', hx', hslot'⟩ := back hz
    exact hs.slotUnique p q r r' x x' hx hx' (hslot.trans (he.trans hslot'.symm))

theorem holdings_slots_kept (h : SameHoldings m m') : SlotsKept m m' := by
  refine ⟨fun r => ?_, h.swapBits, ⟨h.shape, h.counter⟩⟩
  have hslot := congrArg (Option.map fun x : ℤ × ℤ × Bool => x.2.1) (h.rows r)
  rw [Option.map_map, Option.map_map] at hslot
  exact hslot

theorem delete_segments_released (hid : ∀ (i : ℕ) t, m.allPageTables[i]? = some t → t.id = i)
    (segments : List Segment) {b b' : List Bool × List Bool}
    (h : deleteSegments m segments b = some b') : Released (RowsOf m segments) b b' := by
  induction segments generalizing b with
  | nil =>
    obtain rfl := Option.some.inj h
    exact released_none _ b (by simp [RowsOf])
  | cons segment rest ih =>
    simp only [deleteSegments, Option.bind_eq_bind, Option.bind_eq_some_iff] at h
    obtain ⟨t, ht, table, htable, middle, hrows, h⟩ := h
    obtain ⟨hindex, -⟩ := replace_same_table hid ht
    exact released_trans (delete_rows_released hrows) (ih h) (rows_of_cons hindex htable rest)

/-- What a request of the memory keeps while the kernel keeps its promises. -/
structure Provided (cfg : MemoryConfig) (s : Site) : Prop where
  slotted : Slotted s.memory s.live
  length : s.memory.bitmapSwap.length = swapPages cfg/8*8

theorem Provided.bounded {s : Site} (h : Provided cfg s) :
    s.memory.bitmapSwap.length ≤ swapPages cfg :=
  h.length ▸ Nat.div_mul_le_self _ 8

theorem kept_provided {s : Site} (hs : Provided cfg s) (h : SlotsKept s.memory m') :
    Provided cfg ⟨m', s.live⟩ :=
  ⟨slotted_kept h hs.slotted, h.swapBits ▸ hs.length⟩

theorem init_provided {s : Site} {pcb answer : Pcb} (hs : Provided cfg s)
    (hnew : s.live pcb.processId = none)
    (h : initProcessStructures cfg s.memory pcb = some (answer, m')) :
    pagesNeeded cfg pcb.segmentTable ≤ s.memory.bitmapSwap.count false ∧
      Provided cfg ⟨m', Function.update s.live pcb.processId (some answer.segmentTable)⟩ := by
  have hneeds := init_process_needs h
  obtain ⟨table, built, hbuilt, hslotted, hlen, -⟩ :=
    slotted_init hs.slotted hs.bounded hnew hneeds
  rw [hbuilt, Option.some.injEq, Prod.mk.injEq] at h
  obtain ⟨rfl, rfl⟩ := h
  exact ⟨hneeds, hslotted, hlen.trans hs.length⟩

theorem end_provided {s : Site} {pcb : Pcb} (hs : Provided cfg s)
    (hl : s.live pcb.processId = some pcb.segmentTable) (h : deleteProcess s.memory pcb = some m') :
    Provided cfg ⟨m', Function.update s.live pcb.processId none⟩ := by
  obtain ⟨memory, swap, hdelete, rfl⟩ := delete_process_some h
  have hgone := delete_segments_released hs.slotted.ids pcb.segmentTable hdelete
  have hrows (y : PageTableRow) : RowsOf s.memory pcb.segmentTable y ↔
      ∃ r, LiveRow s.memory s.live pcb.processId r y := by
    simp only [RowsOf, LiveRow, Owns, hl, Option.some.injEq, exists_eq_left']
  refine ⟨slotted_delete hs.slotted memory swap fun t => ?_, hgone.swapLength.trans hs.length⟩
  rw [hgone.swap]
  simp only [hrows]

theorem site_step_provided (s : Site) (q : Request) (s' : Site) (hs : Provided cfg s)
    (hq : Promised s q) (h : siteStep cfg s q = some s') : Provided cfg s' := by
  obtain ⟨request, m', answer, rfl, hm', rfl⟩ | ⟨pcb, built, m', rfl, hinit, rfl⟩ |
    ⟨pcb, sn, pn, m', answer, rfl, hm', rfl⟩ | ⟨pcb, m', rfl, hdelete, rfl⟩ := site_step_cases h
  · exact kept_provided hs (holdings_slots_kept (cpu_same_holdings hs.slotted.ids hm'))
  · exact (init_provided hs hq hinit).2
  · have hkept := request_page_fault_kept slots_kept
      (fun _ _ _ => ⟨fun _ => rfl, rfl, ⟨rfl, rfl⟩⟩) hm'
    exact kept_provided hs hkept
  · exact end_provided hs hq hdelete

theorem boot_provided (cfg : MemoryConfig) (ram swap : ℕ → UInt8) :
    Provided cfg (boot cfg ram swap) := by
  refine ⟨⟨by simp [boot, initMemory], rfl, by simp [boot], ?_, ?_, ?_⟩,
    by simp [boot, initMemory, createBitmap, swapPages]⟩
  · rintro p q t ⟨segments, hl, -⟩
    simp [boot] at hl
  · rintro p r x ⟨⟨segments, hl, -⟩, -⟩
    simp [boot] at hl
  · rintro p q r r' x y ⟨⟨segments, hl, -⟩, -⟩
    simp [boot] at hl

end Requests

/-- Tables that were built with a slot for each row give every page its own. -/
theorem provided_slots {cfg : MemoryConfig} {s : Site} {pcb answer : Pcb} {m' : Memory}
    (hs : Provided cfg s) (hnew : s.live pcb.processId = none)
    (h : initProcessStructures cfg s.memory pcb = some (answer, m')) :
    SlotsGiven cfg s pcb answer m' := by
  obtain ⟨hneeds, hprovided⟩ := init_provided hs hnew h
  obtain ⟨table, built, hbuilt, -, -, hsizes⟩ := slotted_init hs.slotted hs.bounded hnew hneeds
  rw [hbuilt, Option.some.injEq, Prod.mk.injEq] at h
  obtain ⟨rfl, rfl⟩ := h
  obtain ⟨segments, hanswer, hbuilds⟩ :=
    init_process_structures_builds ⟨hs.slotted.ids, hs.slotted.counter⟩ hbuilt
  obtain rfl : table = segments := congrArg Pcb.segmentTable hanswer
  refine ⟨hsizes, fun segment hsegment i hi => ?_⟩
  obtain ⟨k, hk⟩ := List.mem_iff_getElem?.mp hsegment
  obtain ⟨hindex, t, ht, hof⟩ := hbuilds.added k segment hk
  have hposition : segment.indexPage.toNat = s.memory.allPageTables.length+k := by
    rw [hindex, Int.toNat_natCast]
  obtain ⟨x, hx⟩ : ∃ x, t.pagesList[i]? = some x :=
    ⟨_, List.getElem?_eq_getElem (hof.rows ▸ hi)⟩
  have hrow : row built ⟨segment.indexPage.toNat, i⟩ = some x := by
    simp [row, hposition, ht, hx]
  have hlive : LiveRow built (Function.update s.live pcb.processId (some table)) pcb.processId
      ⟨segment.indexPage.toNat, i⟩ x := by
    refine ⟨⟨table, Function.update_self .., ?_⟩, hrow⟩
    rw [hposition, ← hindex]
    exact List.mem_map_of_mem hsegment
  have hslot := marked_range (hprovided.slotted.slotMarked _ _ x hlive)
  have hbound := hprovided.bounded
  refine ⟨x, hrow, ⟨hslot.1, by omega⟩, fun q r y hy hsame => ?_⟩
  exact hprovided.slotted.slotUnique _ _ _ _ y x hy hlive hsame

/-- The request leaves memory intact exactly when the bitmap of swap has a clear bit for each
page. -/
theorem swap_intact_iff (cfg : MemoryConfig) (ram swap : ℕ → UInt8) (requests : List Request)
    (s : Site) (hg : Guarded (siteStep cfg) Promised (boot cfg ram swap) requests)
    (h : run (siteStep cfg) (boot cfg ram swap) requests = some s) (pcb : Pcb)
    (hnew : s.live pcb.processId = none) :
    SwapIntact cfg s pcb ↔ pagesNeeded cfg pcb.segmentTable ≤ s.memory.bitmapSwap.count false := by
  have hs : Provided cfg s := guarded_run (siteStep cfg) (Provided cfg) Promised site_step_provided
    requests _ s (boot_provided cfg ram swap) hg h
  constructor
  · rintro ⟨answer, m', hinit, -⟩
    exact (init_provided hs hnew hinit).1
  · intro hfree
    obtain ⟨answer, m', hinit, -⟩ := slotted_init hs.slotted hs.bounded hnew hfree
    exact ⟨_, m', hinit, Or.inl (provided_slots hs hnew hinit)⟩

/-- A second process gets its slots while the first is alive. -/
theorem swap_intact_small : SwapIntact smallConfig smallSite { smallPcb 0 with processId := 2 } :=
  (swap_intact_iff smallConfig zeros zeros smallRequests smallSite (by decide +kernel)
    small_site_reached { smallPcb 0 with processId := 2 } (by decide +kernel)).mpr (by decide +kernel)

/-- Nine pages for eight slots: there is no answer, and nothing is undone. -/
theorem swap_exhausted : ¬SwapIntact smallConfig (boot smallConfig zeros zeros) (longPcb 0) := by
  have hnone : (initProcessStructures smallConfig (boot smallConfig zeros zeros).memory
      (longPcb 0)).isNone = true := by decide +kernel
  rintro ⟨answer, m', h, -⟩
  simp [h] at hnone

end Geck.SwapSlots
