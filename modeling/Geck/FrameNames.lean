import Geck.StoreOutcome

/-!
# The page of a frame

`get_frame_data` walks the tables of all processes there ever were and keeps the
last present row of the frame. An eviction clears the presence bit of its victim;
a deletion clears bits of the bitmaps only, and the rows of the process stay
present in their frames. A frame therefore has one page exactly as long as no
page fault takes a free frame that such a row still has.
-/

set_option autoImplicit false

namespace Geck.FrameNames
open Geck.LabelledRuns Geck.BlockStore Geck.SharedPcb Geck.MemoryState Geck.MemoryPaging
open Geck.MemoryHandlers Geck.MemoryReplacement Geck.MemoryAccounting Geck.MemoryAllocation
open Geck.MemoryFaults Geck.MemorySystem Geck.MemoryIsolation Geck.FreeSearch Geck.PageTables
open Geck.UpdateRules Geck.ClockMirror Geck.ServedAccounts Geck.StoreOutcome Geck.PageBounds

/-- The inner loop of `get_frame_data`, from the row `j` on. -/
def searchFrameRows (frame segmentNum : ℤ) : List PageTableRow → ℕ → Option (ℤ × ℕ) →
    Option (ℤ × ℕ)
  | [], _, res => res
  | row::rows, j, res =>
    searchFrameRows frame segmentNum rows (j+1)
      (if row.frameNumber = frame ∧ row.presence = true then some (segmentNum, j) else res)

def searchFrameTables (frame : ℤ) : List PageTable → Option (ℤ × ℕ) → Option (ℤ × ℕ)
  | [], res => res
  | table::tables, res =>
    searchFrameTables frame tables (searchFrameRows frame table.segmentNum table.pagesList 0 res)

/-- The two integers of `res`, which are not written where no row is found. -/
def getFrameData (m : Memory) (frame : ℤ) : Option (ℤ × ℕ) :=
  searchFrameTables frame m.allPageTables none

/-- The row is marked present in the frame. -/
def Names (m : Memory) (r : PageRef) (frame : ℤ) : Prop :=
  ∃ x, row m r = some x ∧ InTheFrame frame x

def OneName (m : Memory) : Prop := ∀ frame r r', Names m r frame → Names m r' frame → r = r'

/-- A frame has one page, and a resident page of a live process is the one that is found. -/
structure FramesNamed (s : Site) : Prop where
  unique : OneName s.memory
  data : ∀ pid segments sn pn v x, s.live pid = some segments →
    requestedPage segments sn pn = some v → row s.memory v = some x → x.presence = true →
    ∃ n : ℕ, pn = n ∧ getFrameData s.memory x.frameNumber = some (sn, n)

def Unnamed (m : Memory) (frame : ℤ) : Prop :=
  ∀ table ∈ m.allPageTables, ∀ x ∈ table.pagesList, ¬InTheFrame frame x

instance (m : Memory) (frame : ℤ) : Decidable (Unnamed m frame) :=
  inferInstanceAs (Decidable (∀ table ∈ m.allPageTables, ∀ x ∈ table.pagesList, _))

/-- A page fault of a process that has not all its frames finds a free frame that no row of
any process is marked present in. -/
def TakesUnnamed (cfg : MemoryConfig) (s : Site) : Request → Prop
  | .kernel (.requestPageFault pcb _ _) =>
    framesInMemoryOfProcess s.memory pcb.processId = some cfg.marcosPorProceso ∨
      ∀ frame ∈ findPageFree cfg s.memory.bitmapMemory, frame ≠ -1 → Unnamed s.memory frame
  | _ => True

instance (cfg : MemoryConfig) (s : Site) : ∀ q, Decidable (TakesUnnamed cfg s q)
  | .kernel (.requestPageFault ..) =>
    inferInstanceAs (Decidable (_ ∨ ∀ frame ∈ findPageFree cfg s.memory.bitmapMemory, _))
  | .kernel (.initProcessStructuresMemory _) => inferInstanceAs (Decidable True)
  | .kernel (.endStructures _) => inferInstanceAs (Decidable True)
  | .cpu _ => inferInstanceAs (Decidable True)

section Search
variable (frame : ℤ)

/-- The loop leaves `res` as it is, or leaves the last row of the frame in it. -/
theorem search_rows_cases (segmentNum : ℤ) (rows : List PageTableRow) (j : ℕ)
    (res : Option (ℤ × ℕ)) :
    (searchFrameRows frame segmentNum rows j res = res ∧ ∀ x ∈ rows, ¬InTheFrame frame x) ∨
    ∃ (k : ℕ) (x : PageTableRow), rows[k]? = some x ∧ InTheFrame frame x ∧
      searchFrameRows frame segmentNum rows j res = some (segmentNum, j+k) := by
  induction rows generalizing j res with
  | nil => exact Or.inl ⟨rfl, by simp⟩
  | cons row rows ih =>
    unfold searchFrameRows
    obtain ⟨hsame, hnone⟩ | ⟨k, x, hx, hin, hlast⟩ := ih (j+1)
      (if row.frameNumber = frame ∧ row.presence = true then some (segmentNum, j) else res)
    · rw [hsame]
      by_cases hrow : InTheFrame frame row
      · exact Or.inr ⟨0, row, rfl, hrow, if_pos hrow⟩
      · exact Or.inl ⟨if_neg hrow, List.forall_mem_cons.mpr ⟨hrow, hnone⟩⟩
    · refine Or.inr ⟨k+1, x, hx, hin, ?_⟩
      rw [hlast, show j+1+k = j+(k+1) by omega]

theorem search_tables_cases (tables : List PageTable) (res : Option (ℤ × ℕ)) :
    (searchFrameTables frame tables res = res ∧
      ∀ table ∈ tables, ∀ x ∈ table.pagesList, ¬InTheFrame frame x) ∨
    ∃ (t : ℕ) (table : PageTable) (k : ℕ) (x : PageTableRow), tables[t]? = some table ∧
      table.pagesList[k]? = some x ∧ InTheFrame frame x ∧
      searchFrameTables frame tables res = some (table.segmentNum, k) := by
  induction tables generalizing res with
  | nil => exact Or.inl ⟨rfl, by simp⟩
  | cons table tables ih =>
    unfold searchFrameTables
    obtain ⟨hsame, hnone⟩ | ⟨t, last, k, x, htable, hx, hin, hlast⟩ := ih
      (searchFrameRows frame table.segmentNum table.pagesList 0 res)
    · obtain ⟨hkept, hrows⟩ | ⟨k, x, hx, hin, hfound⟩ :=
        search_rows_cases frame table.segmentNum table.pagesList 0 res
      · exact Or.inl ⟨hsame.trans hkept, List.forall_mem_cons.mpr ⟨hrows, hnone⟩⟩
      · refine Or.inr ⟨0, table, k, x, rfl, hx, hin, ?_⟩
        rw [hsame, hfound, zero_add]
    · exact Or.inr ⟨t+1, last, k, x, htable, hx, hin, hlast⟩

end Search

section Names
variable {m m' : Memory} {frame : ℤ}

theorem unnamed_iff : Unnamed m frame ↔ ∀ r, ¬Names m r frame := by
  constructor
  · rintro hall ⟨t, i⟩ ⟨x, hx, hin⟩
    obtain ⟨table, htable, hx⟩ := Option.bind_eq_some_iff.mp hx
    exact hall table (List.mem_of_getElem? htable) x (List.mem_of_getElem? hx) hin
  · intro hall table htable x hx hin
    obtain ⟨t, ht⟩ := List.mem_iff_getElem?.mp htable
    obtain ⟨i, hi⟩ := List.mem_iff_getElem?.mp hx
    exact hall ⟨t, i⟩ ⟨x, (rows_of_table ht i).trans hi, hin⟩

/-- Where a frame has one page, that is the page which is found for it. -/
theorem get_frame_data_named (hone : OneName m) {t i : ℕ} {table : PageTable}
    (htable : m.allPageTables[t]? = some table) (hname : Names m ⟨t, i⟩ frame) :
    getFrameData m frame = some (table.segmentNum, i) := by
  obtain ⟨-, hnone⟩ | ⟨u, last, k, x, hlast, hx, hin, hfound⟩ :=
    search_tables_cases frame m.allPageTables none
  · exact absurd hname (unnamed_iff.mp hnone ⟨t, i⟩)
  · have hsame := hone frame ⟨u, k⟩ ⟨t, i⟩ ⟨x, (rows_of_table hlast k).trans hx, hin⟩ hname
    obtain ⟨rfl, rfl⟩ := PageRef.mk.inj hsame
    obtain rfl := Option.some.inj (hlast.symm.trans htable)
    exact hfound

theorem names_same (h : SameHoldings m m') {r : PageRef} (hname : Names m' r frame) :
    Names m r frame := by
  obtain ⟨x', hx', hframe, hpresent⟩ := hname
  have hrow := h.rows r
  rw [hx', Option.map_some] at hrow
  obtain ⟨x, hx, hsame⟩ := Option.map_eq_some_iff.mp hrow.symm
  obtain ⟨hframes, -, hpresence⟩ : x.frameNumber = x'.frameNumber ∧
    x.swapPosition = x'.swapPosition ∧ x.presence = x'.presence := by simpa [holding] using hsame
  exact ⟨x, hx, hframes.trans hframe, hpresence.trans hpresent⟩

theorem one_name_of_names (h : ∀ frame r, Names m' r frame → Names m r frame) (hone : OneName m) :
    OneName m' :=
  fun frame r r' hr hr' => hone frame r r' (h frame r hr) (h frame r' hr')

end Names

section Initialising
variable {cfg : MemoryConfig}

theorem builder_rows_absent (n : ℕ) {bitmap bitmap' : List Bool} {rows : List PageTableRow}
    (h : builderRows cfg n bitmap = some (rows, bitmap')) : ∀ x ∈ rows, x.presence = false := by
  induction n generalizing bitmap bitmap' rows with
  | zero =>
    simp only [builderRows, Option.some.injEq, Prod.mk.injEq] at h
    simp [← h.1]
  | succ n ih =>
    simp only [builderRows, Option.bind_eq_bind, Option.bind_eq_some_iff] at h
    obtain ⟨position, -, marked, -, ⟨rest, last⟩, hrest, h⟩ := h
    simp only [Option.some.injEq, Prod.mk.injEq] at h
    rw [← h.1]
    exact List.forall_mem_cons.mpr ⟨rfl, ih hrest⟩

theorem init_segments_names (segments : List Segment) {i : ℤ} {m m' : Memory}
    {answer : List Segment} (h : initSegments cfg segments i m = some (answer, m')) {frame : ℤ}
    {r : PageRef} (hname : Names m' r frame) : Names m r frame := by
  induction segments generalizing i m answer with
  | nil =>
    simp only [initSegments, Option.some.injEq, Prod.mk.injEq] at h
    exact h.2 ▸ hname
  | cons segment rest ih =>
    simp only [initSegments, builderPageTable, Option.bind_eq_bind, Option.bind_eq_some_iff] at h
    obtain ⟨⟨table, bitmap⟩, ⟨⟨rows, marked⟩, hrows, hbuilt⟩, ⟨later, last⟩, hlater, h⟩ := h
    simp only [Option.some.injEq, Prod.mk.injEq] at hbuilt h
    obtain ⟨rfl, rfl⟩ := hbuilt
    obtain ⟨-, rfl⟩ := h
    obtain ⟨x, hx, hin⟩ := ih hlater
    have hadded : row (addTable m ⟨m.pageTablesCounter, rows, i⟩ marked) r = some x := hx
    rcases Nat.lt_or_ge r.table m.allPageTables.length with hlt | hge
    · exact ⟨x, (row_add_old m _ _ r hlt).symm.trans hadded, hin⟩
    · obtain ⟨-, hnew⟩ := row_add_new m _ _ r x hge hadded
      have habsent := builder_rows_absent _ hrows x (List.mem_of_getElem? hnew)
      simp [hin.2] at habsent

theorem init_process_names {m m' : Memory} {pcb built : Pcb}
    (h : initProcessStructures cfg m pcb = some (built, m')) {frame : ℤ} {r : PageRef}
    (hname : Names m' r frame) : Names m r frame := by
  obtain ⟨segments, hsegments, -⟩ := init_process_some h
  exact init_segments_names _ hsegments hname

end Initialising

section Faults
variable {cfg : MemoryConfig} {m m' m₂ : Memory} {live : Live} {pid f : ℤ} {c c₂ : ClockStruct}

theorem room_names (h : Room cfg m live pid c m₂ c₂ f) {frame : ℤ} {r : PageRef}
    (hname : Names m₂ r frame) : Names m r frame := by
  cases h with
  | free => exact hname
  | replaced m₁ gone k x p touched chosen victim resident own evicted =>
    obtain ⟨y, hy, hin⟩ := hname
    have hne : r ≠ k.page := by
      rintro rfl
      obtain rfl := Option.some.inj (hy.symm.trans evicted.gone)
      simp [InTheFrame, evictedRow] at hin
    exact names_same (touched_same_holdings touched)
      ⟨y, (evicted.others r hne).symm.trans hy, hin⟩

/-- An eviction leaves its frame without a page. -/
theorem replaced_unnamed (hone : OneName m) (h : Room cfg m live pid c m₂ c₂ f)
    (hfull : c.framesInMemory.length = cfg.marcosPorProceso) (r : PageRef) : ¬Names m₂ r f := by
  cases h with
  | free few => omega
  | replaced m₁ gone k x p touched chosen victim resident own evicted pointer full =>
    have hvictim : Names m k.page k.frameNumberInMemory :=
      names_same (touched_same_holdings touched) ⟨x, evicted.victim, own, resident⟩
    intro hname
    have hsame := hone _ r k.page
      (room_names (.replaced m₁ gone k x p touched chosen victim resident own evicted pointer full)
        hname) hvictim
    obtain ⟨y, hy, hin⟩ := hname
    rw [hsame] at hy
    obtain rfl := Option.some.inj (hy.symm.trans evicted.gone)
    simp [InTheFrame, evictedRow] at hin

/-- A fault keeps one page for each frame exactly when its frame has no page before the load. -/
theorem served_one_name {v : PageRef} {x : PageTableRow} (hone : OneName m)
    (h : Served cfg m m' live pid v x f m₂ c c₂) :
    OneName m' ↔ ∀ r, ¬Names m₂ r f := by
  have hload := h.loaded
  have hnew : Names m' v f := ⟨_, hload.after, rfl, rfl⟩
  have habsent {r : PageRef} {frame : ℤ} (hname : Names m₂ r frame) : r ≠ v := by
    rintro rfl
    obtain ⟨y, hy, hin⟩ := hname
    obtain rfl := Option.some.inj (hy.symm.trans hload.before)
    exact absurd (hin.2.symm.trans h.absent) (by simp)
  have hold {r : PageRef} {frame : ℤ} (hne : r ≠ v) : Names m' r frame ↔ Names m₂ r frame := by
    simp only [Names, hload.others r hne]
  constructor
  · intro hone' r hname
    exact habsent hname (hone' f r v ((hold (habsent hname)).mpr hname) hnew)
  · have hloaded {frame : ℤ} (hname : Names m' v frame) : frame = f := by
      obtain ⟨y, hy, hin⟩ := hname
      obtain rfl := Option.some.inj (hy.symm.trans hload.after)
      exact hin.1.symm
    intro hnone frame r r' hr hr'
    by_cases hv : r = v <;> by_cases hv' : r' = v
    · rw [hv, hv']
    · subst hv
      obtain rfl := hloaded hr
      exact absurd ((hold hv').mp hr') (hnone r')
    · subst hv'
      obtain rfl := hloaded hr'
      exact absurd ((hold hv).mp hr) (hnone r)
    · exact hone frame r r' (room_names h.room ((hold hv).mp hr))
        (room_names h.room ((hold hv').mp hr'))

theorem requested_unnamed_iff (ha : Accounts (bitmapConfig cfg) m live) (hone : OneName m)
    {pcb : Pcb} {sn pn : ℤ} {v : PageRef} {x : PageTableRow}
    (hchosen : chooseFrame cfg m pcb.processId = some (m₂, f))
    (h : Served (bitmapConfig cfg) m m' live pcb.processId v x f m₂ c c₂) :
    TakesUnnamed cfg ⟨m, live⟩ (.kernel (.requestPageFault pcb sn pn)) ↔ ∀ r, ¬Names m₂ r f := by
  have hframes := frames_of_clock h.clock
  have hf : f ≠ -1 := by
    have := (room_frame ha.holdings h.room).1.1
    omega
  simp only [TakesUnnamed, hframes, Option.some.injEq]
  by_cases hfull : c.framesInMemory.length = cfg.marcosPorProceso
  · exact iff_of_true (Or.inl hfull) (replaced_unnamed hone h.room hfull)
  · rw [choose_frame_below h.clock hfull] at hchosen
    obtain ⟨free, hfree, hchosen⟩ := Option.map_eq_some_iff.mp hchosen
    obtain ⟨rfl, rfl⟩ := Prod.mk.inj hchosen
    rw [← unnamed_iff, or_iff_right hfull]
    constructor
    · exact fun hall => hall free hfree hf
    · intro hnone frame hframe _
      obtain rfl := Option.some.inj (hfree.symm.trans hframe)
      exact hnone

/-- A fault that is refused found no free frame. -/
theorem refused_unnamed (ha : Accounts (bitmapConfig cfg) m live) {pcb : Pcb} {sn pn : ℤ}
    {v : PageRef} {x : PageTableRow} (hq : Requestable m live pcb sn pn v x)
    (hrefused : requestPageFault cfg m pcb sn pn = none) :
    TakesUnnamed cfg ⟨m, live⟩ (.kernel (.requestPageFault pcb sn pn)) := by
  obtain ⟨c, hc, -⟩ := ha.clocks _ _ hq.alive
  have hframes := frames_of_clock hc
  by_cases hfull : c.framesInMemory.length = cfg.marcosPorProceso
  · exact Or.inl (hframes.trans (congrArg some hfull))
  · refine Or.inr fun frame hframe hf => ?_
    have hchosen : chooseFrame cfg m pcb.processId = some (m, frame) := by
      have hfree : findPageFree cfg m.bitmapMemory = some frame := hframe
      rw [choose_frame_below hc hfull, hfree]
      rfl
    obtain ⟨m', _, _, hloaded, -⟩ := chosen_loads ha hq hf hchosen
    simp [requested_fault ha hq, hchosen, hloaded] at hrefused

end Faults

/-- The table of a segment of a live process has the position of the segment for number. -/
structure Numbered (s : Site) : Prop where
  tabled : Tabled s.memory
  segments : ∀ pid segments (k : ℕ) segment, s.live pid = some segments →
    segments[k]? = some segment → ∃ (t : ℕ) (table : PageTable), segment.indexPage = t ∧
      s.memory.allPageTables[t]? = some table ∧ table.segmentNum = k

section Numbers
variable {cfg : MemoryConfig} {s : Site}

theorem same_tables_table {m m' : Memory} (h : SameTables m m') {t : ℕ} {table : PageTable}
    (htable : m.allPageTables[t]? = some table) :
    ∃ table', m'.allPageTables[t]? = some table' ∧ table'.segmentNum = table.segmentNum := by
  have hshape := congrArg (fun shape => shape[t]?) h.shape
  simp only [tableShape, List.getElem?_map, htable, Option.map_some] at hshape
  obtain ⟨table', htable', hsame⟩ := Option.map_eq_some_iff.mp hshape
  exact ⟨table', htable', congrArg (fun entry => entry.2.1) hsame⟩

theorem numbered_same {m' : Memory} (h : SameTables s.memory m') (hs : Numbered s) :
    Numbered ⟨m', s.live⟩ := by
  refine ⟨h.tabled hs.tabled, fun pid segments k segment hl hk => ?_⟩
  obtain ⟨t, table, hindex, htable, hnum⟩ := hs.segments pid segments k segment hl hk
  obtain ⟨table', htable', hsame⟩ := same_tables_table h htable
  exact ⟨t, table', hindex, htable', hsame.trans hnum⟩

theorem site_step_numbered (s : Site) (q : Request) (s' : Site) (hs : Numbered s)
    (h : siteStep cfg s q = some s') : Numbered s' := by
  obtain ⟨request, m', answer, rfl, hm', rfl⟩ | ⟨pcb, built, m', rfl, hinit, rfl⟩ |
    ⟨pcb, sn, pn, m', answer, rfl, hm', rfl⟩ | ⟨pcb, m', rfl, hdelete, rfl⟩ := site_step_cases h
  · exact numbered_same (attend_cpu_tables hs.tabled hm') hs
  · obtain ⟨built, rfl, hbuilds⟩ := init_process_structures_builds hs.tabled hinit
    refine ⟨hbuilds.tabled, fun pid segments k segment hl hk => ?_⟩
    by_cases hpid : pid = pcb.processId
    · subst hpid
      obtain rfl : built = segments := by simpa using hl
      obtain ⟨hindex, table, htable, hof⟩ := hbuilds.added k segment hk
      exact ⟨_, table, hindex, htable, by simpa using hof.segmentNum⟩
    · obtain ⟨t, table, hindex, htable, hnum⟩ :=
        hs.segments pid segments k segment (by simpa [hpid] using hl) hk
      have hlt := (List.getElem?_eq_some_iff.mp htable).1
      exact ⟨t, table, hindex, (hbuilds.old t hlt).trans htable, hnum⟩
  · exact numbered_same (request_page_fault_tables hm') hs
  · have hsame := numbered_same (delete_process_tables hdelete) hs
    refine ⟨hsame.tabled, fun pid segments k segment hl hk => ?_⟩
    have hpid : pid ≠ pcb.processId := by
      rintro rfl
      simp at hl
    exact hsame.segments pid segments k segment (by simpa [hpid] using hl) hk

theorem boot_numbered (cfg : MemoryConfig) (ram swap : ℕ → UInt8) :
    Numbered (boot cfg ram swap) :=
  ⟨⟨by simp [boot, initMemory], rfl⟩, fun _ _ _ _ hl => by simp [boot] at hl⟩

/-- With the tables numbered, the page that is found is right where it is the only one. -/
theorem frames_named_iff (hs : Numbered s) : FramesNamed s ↔ OneName s.memory := by
  refine ⟨FramesNamed.unique, fun hone => ⟨hone, fun pid segments sn pn v x hl hv hx hp => ?_⟩⟩
  obtain ⟨segment, hsegment, hindex, rfl⟩ := requested_segment hv
  obtain ⟨h0, hk⟩ := list_get_some hsegment
  obtain ⟨t, table, ht, htable, hnum⟩ := hs.segments pid segments sn.toNat segment hl hk
  obtain rfl : v.table = t := by exact_mod_cast hindex.symm.trans ht
  have hfound := get_frame_data_named hone (i := v.page) htable ⟨x, hx, rfl, hp⟩
  rw [hnum, Int.toNat_of_nonneg h0] at hfound
  exact ⟨v.page, rfl, hfound⟩

end Numbers

section Steps
variable {cfg : MemoryConfig}

/-- What a step that is no page fault does to the pages of the frames. -/
theorem step_names {s s' : Site} {q : Request} (htabled : Tabled s.memory)
    (h : siteStep cfg s q = some s') :
    (TakesUnnamed cfg s q ∧ ∀ frame r, Names s'.memory r frame → Names s.memory r frame) ∨
    ∃ pcb sn pn m' answer, q = .kernel (.requestPageFault pcb sn pn) ∧
      requestPageFault cfg s.memory pcb sn pn = some (m', answer) ∧ s' = ⟨m', s.live⟩ := by
  obtain ⟨request, m', answer, rfl, hm', rfl⟩ | ⟨pcb, built, m', rfl, hinit, rfl⟩ |
    ⟨pcb, sn, pn, m', answer, rfl, hm', rfl⟩ | ⟨pcb, m', rfl, hdelete, rfl⟩ := site_step_cases h
  · exact Or.inl ⟨trivial, fun frame r => names_same (cpu_same_holdings htabled.ids hm')⟩
  · exact Or.inl ⟨trivial, fun frame r => init_process_names hinit⟩
  · exact Or.inr ⟨pcb, sn, pn, m', answer, rfl, hm', rfl⟩
  · obtain ⟨memory, swap, -, rfl⟩ := delete_process_some hdelete
    exact Or.inl ⟨trivial, fun frame r => id⟩

theorem site_step_named {s s' : Site} {q : Request} (hs : Numbered s)
    (ha : Accounts (bitmapConfig cfg) s.memory s.live) (hn : FramesNamed s)
    (hq : AskedRequest s q) (h : siteStep cfg s q = some s') :
    FramesNamed s' ↔ TakesUnnamed cfg s q := by
  rw [frames_named_iff (site_step_numbered s q s' hs h)]
  obtain ⟨hguard, hnames⟩ | ⟨pcb, sn, pn, m', answer, rfl, hm', rfl⟩ := step_names hs.tabled h
  · exact iff_of_true (one_name_of_names hnames hn.unique) hguard
  · obtain ⟨v, x, hv⟩ := hq
    obtain ⟨f, m₂, c, c₂, hchosen, hserved⟩ := fault_served ha hv hm'
    rw [served_one_name hn.unique hserved]
    exact (requested_unnamed_iff ha hn.unique hchosen hserved).symm

theorem step_refused_unnamed {s : Site} {q : Request}
    (ha : Accounts (bitmapConfig cfg) s.memory s.live) (hq : AskedRequest s q)
    (h : siteStep cfg s q = none) : TakesUnnamed cfg s q := by
  cases q with
  | cpu request => trivial
  | kernel request =>
    cases request with
    | initProcessStructuresMemory pcb => trivial
    | endStructures pcb => trivial
    | requestPageFault pcb sn pn =>
      obtain ⟨v, x, hv⟩ := hq
      refine refused_unnamed ha hv (Option.eq_none_iff_forall_ne_some.mpr ?_)
      intro answered hanswered
      simp [siteStep, attendKernel, hanswered] at h

end Steps

/-- No row is in memory and no clock has a frame. -/
structure Vacant (m : Memory) : Prop where
  unnamed : ∀ frame r, ¬Names m r frame
  clocks : ∀ pid c, m.clockStructures pid = some c → c.framesInMemory = []

theorem vacant_takes_unnamed {cfg : MemoryConfig} {s : Site} {q : Request} (hv : Vacant s.memory) :
    TakesUnnamed cfg s q := by
  cases q with
  | cpu request => trivial
  | kernel request =>
    cases request with
    | requestPageFault pcb sn pn =>
      exact Or.inr fun frame _ _ => unnamed_iff.mpr (hv.unnamed frame)
    | initProcessStructuresMemory pcb => trivial
    | endStructures pcb => trivial

section NoFrames
variable {cfg : MemoryConfig} (hframes : cfg.marcosPorProceso = 0)
include hframes

/-- A replacement in an empty clock reads behind its end. -/
theorem vacant_fault {m m' : Memory} (hv : Vacant m) {pcb : Pcb} {sn pn : ℤ}
    {answer : Option KernelResponse} (h : requestPageFault cfg m pcb sn pn = some (m', answer)) :
    m' = m := by
  obtain rfl | ⟨t, chosen, frame, hchosen, hloaded⟩ := page_fault_some h
  · rfl
  · obtain ⟨c, hc, ⟨-, hchosen⟩ | ⟨hbelow, -⟩⟩ := choose_frame_some hchosen
    · by_cases hknown : cfg.algoritmoReemplazo = .other
      · simp only [useReplacementAlgorithm, hknown, Option.some.injEq, Prod.mk.injEq] at hchosen
        rw [← hchosen.2, load_page_nowhere] at hloaded
        simp at hloaded
      · obtain ⟨c', p, turned, hc', -, -, hmem⟩ := replacement_kept clocks_kept hknown hchosen
        simp [hv.clocks _ c' hc'] at hmem
    · have hempty := hv.clocks _ c hc
      refine absurd ?_ hbelow
      rw [hempty, hframes]
      rfl

theorem site_step_vacant {s s' : Site} {q : Request} (hs : Numbered s) (hv : Vacant s.memory)
    (h : siteStep cfg s q = some s') : Vacant s'.memory := by
  obtain ⟨request, m', answer, rfl, hm', rfl⟩ | ⟨pcb, built, m', rfl, hinit, rfl⟩ |
    ⟨pcb, sn, pn, m', answer, rfl, hm', rfl⟩ | ⟨pcb, m', rfl, hdelete, rfl⟩ := site_step_cases h
  · have hsame := cpu_same_holdings hs.tabled.ids hm'
    exact ⟨fun frame r hname => hv.unnamed frame r (names_same hsame hname),
      hsame.clocks ▸ hv.clocks⟩
  · refine ⟨fun frame r hname => hv.unnamed frame r (init_process_names hinit hname),
      fun pid c hc => ?_⟩
    obtain ⟨segments, hsegments, -⟩ := init_process_some hinit
    rw [(init_segments_framed _ hsegments).2] at hc
    by_cases hpid : pid = pcb.processId
    · subst hpid
      simp only [createClockStructure, setStructClock, Function.update_self, Option.some.injEq] at hc
      simp [← hc]
    · exact hv.clocks pid c (by simpa [createClockStructure, setStructClock, hpid] using hc)
  · obtain rfl := vacant_fault hframes hv hm'
    exact hv
  · obtain ⟨memory, swap, -, rfl⟩ := delete_process_some hdelete
    exact ⟨hv.unnamed, hv.clocks⟩

end NoFrames

theorem boot_vacant (cfg : MemoryConfig) (ram swap : ℕ → UInt8) :
    Vacant (boot cfg ram swap).memory :=
  ⟨fun _ => unnamed_iff.mp (by simp [Unnamed, boot, initMemory]), by simp [boot, initMemory]⟩

theorem boot_named (cfg : MemoryConfig) (ram swap : ℕ → UInt8) :
    FramesNamed (boot cfg ram swap) :=
  (frames_named_iff (boot_numbered cfg ram swap)).mpr
    fun frame r _ hr => absurd hr ((boot_vacant cfg ram swap).unnamed frame r)

/-- In every state of a run a frame has one page, and the resident pages of live processes are
found by their frames, exactly when no fault of the run takes a free frame that a row still has. -/
theorem frame_names_one_page_iff (cfg : MemoryConfig) (ram swap : ℕ → UInt8)
    (requests : List Request)
    (ha : Guarded (siteStep cfg) AskedRequest (boot cfg ram swap) requests) :
    Always (siteStep cfg) FramesNamed (boot cfg ram swap) requests ↔
      Guarded (siteStep cfg) (TakesUnnamed cfg) (boot cfg ram swap) requests := by
  have hnumbered := boot_numbered cfg ram swap
  have hnamed := boot_named cfg ram swap
  rcases Nat.eq_zero_or_pos cfg.marcosPorProceso with hframes | hframes
  · refine always_iff_guarded (siteStep cfg) (fun s => Numbered s ∧ Vacant s.memory) FramesNamed
      AskedRequest (TakesUnnamed cfg) ?_ ?_ ?_ requests _ ⟨hnumbered, boot_vacant cfg ram swap⟩
      hnamed ha
    · exact fun s q s' hs _ h =>
        ⟨site_step_numbered s q s' hs.1 h, site_step_vacant hframes hs.1 hs.2 h⟩
    · intro s q s' hs _ _ h
      have hv := site_step_vacant hframes hs.1 hs.2 h
      exact iff_of_true ((frames_named_iff (site_step_numbered s q s' hs.1 h)).mpr
        fun frame r _ hr => absurd hr (hv.unnamed frame r)) (vacant_takes_unnamed hs.2)
    · exact fun s q hs _ _ => vacant_takes_unnamed hs.2
  · refine always_iff_guarded (siteStep cfg)
      (fun s => Numbered s ∧ Accounts (bitmapConfig cfg) s.memory s.live) FramesNamed
      AskedRequest (TakesUnnamed cfg) ?_ ?_ ?_ requests _ ⟨hnumbered, boot_bitmaps cfg ram swap⟩
      hnamed ha
    · exact fun s q s' hs hq h =>
        ⟨site_step_numbered s q s' hs.1 h, site_step_served hframes s q s' hs.2 hq h⟩
    · exact fun s q s' hs hn hq h => site_step_named hs.1 hs.2 hn hq h
    · exact fun s q hs hq h => step_refused_unnamed hs.2 hq h

theorem frame_names_small :
    Always (siteStep smallConfig) FramesNamed (boot smallConfig zeros zeros) smallRequests :=
  (frame_names_one_page_iff smallConfig zeros zeros smallRequests (by decide +kernel)).mpr
    (by decide +kernel)

/-- Process 2 has a page in frame 0 and ends; a page of process 1 comes into frame 0. -/
def reusedFrame : List Request :=
  [.kernel (.initProcessStructuresMemory (smallPcb (-1))),
    .kernel (.initProcessStructuresMemory (otherPcb (-1))),
    .kernel (.requestPageFault (otherPcb 1) 0 0), .kernel (.endStructures (otherPcb 1)),
    .kernel (.requestPageFault (smallPcb 0) 0 1)]

def reusedSite : Site :=
  reached (siteStep smallConfig) (boot smallConfig zeros zeros) reusedFrame

/-- The row of process 2 is still present, and is taken for the page of process 1. -/
theorem reused_frame_two_names :
    Guarded (siteStep smallConfig) AskedRequest (boot smallConfig zeros zeros) reusedFrame ∧
    run (siteStep smallConfig) (boot smallConfig zeros zeros) reusedFrame = some reusedSite ∧
    Names reusedSite.memory ⟨0, 1⟩ 0 ∧ Names reusedSite.memory ⟨1, 0⟩ 0 ∧
    reusedSite.live 1 = some (smallPcb 0).segmentTable ∧
    requestedPage (smallPcb 0).segmentTable 0 1 = some ⟨0, 1⟩ ∧
    getFrameData reusedSite.memory 0 = some (0, 0) ∧ ¬FramesNamed reusedSite := by
  have hfirst : (row reusedSite.memory ⟨0, 1⟩).any (fun x => InTheFrame 0 x) = true := by
    decide +kernel
  have hsecond : (row reusedSite.memory ⟨1, 0⟩).any (fun x => InTheFrame 0 x) = true := by
    decide +kernel
  obtain ⟨x, hx, hin⟩ := (Option.any_eq_true _ _).mp hfirst
  obtain ⟨y, hy, hin'⟩ := (Option.any_eq_true _ _).mp hsecond
  have hnames : Names reusedSite.memory ⟨0, 1⟩ 0 := ⟨x, hx, of_decide_eq_true hin⟩
  have hstale : Names reusedSite.memory ⟨1, 0⟩ 0 := ⟨y, hy, of_decide_eq_true hin'⟩
  refine ⟨by decide +kernel, run_reached _ _ _ (by decide +kernel), hnames, hstale,
    by decide +kernel, by decide, by decide +kernel, fun hnamed => ?_⟩
  exact absurd (hnamed.unique 0 _ _ hnames hstale) (by decide)

end Geck.FrameNames
