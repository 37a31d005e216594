import Geck.ClockChoice
import Geck.ServedAccounts
import Geck.StoreOutcome

/-!
# The use bit and the references

A load sets the use bit of its page, a store sets the modified bit only. A page
that is stored in since the hand passed it can therefore be the next victim while
another page has its use bit clear. Where every store meets a page in use, no
page accessed since the hand passed it is taken before the pages that were not.
-/

set_option autoImplicit false

namespace Geck.ReferenceBits
open Geck.LabelledRuns Geck.BlockStore Geck.SharedPcb Geck.MemoryState Geck.MemoryPaging
open Geck.MemoryHandlers Geck.MemoryReplacement Geck.MemoryAccounting Geck.MemoryAllocation
open Geck.MemoryFaults Geck.MemorySystem Geck.MemoryIsolation Geck.FlatMemory Geck.PageTables
open Geck.ClockChoice Geck.ClockMirror Geck.ServedAccounts Geck.StoreOutcome

/-- An access to a page, with the address the CPU built from a frame of its TLB or of memory.
A store has a value. -/
structure Access where
  pcb : Pcb
  segmentNumber : ℤ
  pageNumber : ℤ
  address : ℤ
  value : Option UInt32
  deriving DecidableEq, Repr

def Access.page (a : Access) : Option PageRef :=
  requestedPage a.pcb.segmentTable a.segmentNumber a.pageNumber

/-- What the CPU sends for it. -/
def Access.request (a : Access) : Option CpuRequest :=
  match a.value with
  | none => some (.movIn a.address a.pcb a.segmentNumber a.pageNumber)
  | some value => do
    let segment ← listGet a.pcb.segmentTable a.segmentNumber
    some (.movOut a.address value segment.indexPage a.pcb.processId)

def inUse (m : Memory) (v : PageRef) : Bool := (row m v).any PageTableRow.use

def isModified (m : Memory) (v : PageRef) : Bool := (row m v).any PageTableRow.modified

def resident (m : Memory) (v : PageRef) : Bool := (row m v).any PageTableRow.presence

def bits (x : PageTableRow) : Bool × Bool := (x.use, x.modified)

/-- The bits of the page are set for the access, and those of no other page have changed. -/
structure Recorded (m m' : Memory) (a : Access) (v : PageRef) : Prop where
  use : inUse m' v = true
  modified : a.value ≠ none → isModified m' v = true
  others : ∀ r, r ≠ v → (row m' r).map bits = (row m r).map bits

/-- The row `save_value_in_memory` finds for the address, in the table of the page. -/
def storedRow (cfg : MemoryConfig) (m : Memory) (a : Access) (v : PageRef) : Option ℕ := do
  let table ← m.allPageTables[v.table]?
  searchRow (a.address.tdiv cfg.tamPagina) table.pagesList 0

/-- The access is a load; or the page is in use, and the row of the store is that of the page
or makes no difference. -/
def Recordable (cfg : MemoryConfig) (m : Memory) (a : Access) (v : PageRef) : Prop :=
  a.value = none ∨ (inUse m v = true ∧ (storedRow cfg m a v).any fun i =>
    decide (i = v.page) || (isModified m v && isModified m ⟨v.table, i⟩))

instance (cfg : MemoryConfig) (m : Memory) (a : Access) (v : PageRef) :
    Decidable (Recordable cfg m a v) := inferInstanceAs (Decidable (_ ∨ _ ∧ _))

/-- The pages the hand passes in `simple_clock`. -/
def simpleClockPasses (cfg : MemoryConfig) (rows : List ClockRow) :
    ℕ → Memory → ℕ → List PageRef
  | 0, _, _ => []
  | fuel+1, m, clockPointer =>
    match rows[clockPointer]? with
    | none => []
    | some clockRow =>
      if inUse m clockRow.page then
        clockRow.page::simpleClockPasses cfg rows fuel (clearUse m clockRow.page)
          (uint16 (moveToNextPointer cfg clockPointer))
      else []

/-- The pages the hand passes in `modified_clock`, in either pass. -/
def modifiedClockPasses (cfg : MemoryConfig) (rows : List ClockRow) (start : ℕ) :
    ℕ → ClockPass → Memory → ℕ → List PageRef
  | 0, _, _, _ => []
  | fuel+1, pass, m, clockPointer =>
    match rows[clockPointer]? with
    | none => []
    | some clockRow =>
      let next := moveToNextPointer cfg clockPointer
      if inUse m clockRow.page = false ∧ isModified m clockRow.page = decide (pass = .second) then []
      else
        match pass with
        | .first => clockRow.page::modifiedClockPasses cfg rows start fuel
            (if next = start then .second else .first) m next
        | .second => clockRow.page::modifiedClockPasses cfg rows start fuel
            (if next = start then .first else .second) (clearUse m clockRow.page) next

/-- The pages the hand of the process passes when a frame is chosen. -/
def handPasses (cfg : MemoryConfig) (m : Memory) (pid : ℤ) : List PageRef :=
  match getStructClock m pid with
  | none => []
  | some clock =>
    if clock.framesInMemory.length = cfg.marcosPorProceso then
      match cfg.algoritmoReemplazo with
      | .clockM => modifiedClockPasses cfg clock.framesInMemory clock.pointer
          (4*clock.framesInMemory.length) .first m clock.pointer
      | .clock => simpleClockPasses cfg clock.framesInMemory (clock.framesInMemory.length+1) m
          clock.pointer
      | .other => []
    else []

def passes (cfg : MemoryConfig) (m : Memory) : KernelRequest → List PageRef
  | .requestPageFault pcb _ _ => handPasses cfg m pcb.processId
  | _ => []

inductive Event where
  | kernel (request : KernelRequest)
  | access (access : Access)
  deriving DecidableEq, Repr

/-- The module with the pages accessed since the hand last passed them. -/
structure Traced where
  site : Site
  since : List PageRef

def traceStep (cfg : MemoryConfig) (s : Traced) : Event → Option Traced
  | .kernel q => do
    let site ← siteStep cfg s.site (.kernel q)
    some ⟨site, s.since.filter fun v => v ∉ passes cfg s.site.memory q⟩
  | .access a => do
    let q ← a.request
    let site ← siteStep cfg s.site (.cpu q)
    some ⟨site, (a.page.filter (resident s.site.memory)).toList++s.since⟩

def start (cfg : MemoryConfig) (ram swap : ℕ → UInt8) : Traced := ⟨boot cfg ram swap, []⟩

def AllowedEvent (s : Traced) : Event → Prop
  | .kernel q => Asked s.site q
  | .access a => s.site.live a.pcb.processId = some a.pcb.segmentTable

instance (s : Traced) : ∀ e, Decidable (AllowedEvent s e)
  | .kernel _ => inferInstanceAs (Decidable (Asked _ _))
  | .access _ => inferInstanceAs (Decidable (_ = _))

/-- Every access to a resident page can be recorded. -/
def RecordsAccess (cfg : MemoryConfig) (s : Traced) : Event → Prop
  | .kernel _ => True
  | .access a => ∀ v ∈ a.page.filter (resident s.site.memory), Recordable cfg s.site.memory a v

instance (cfg : MemoryConfig) (s : Traced) : ∀ e, Decidable (RecordsAccess cfg s e)
  | .kernel _ => inferInstanceAs (Decidable True)
  | .access a => inferInstanceAs (Decidable (∀ v ∈ a.page.filter _, _))

/-- While a page of the clock is not in use, the replacement takes no page accessed since the
hand passed it. -/
def SparesReferenced (cfg : MemoryConfig) (s : Traced) : Prop :=
  ∀ pid segments c m' f, s.site.live pid = some segments →
    s.site.memory.clockStructures pid = some c →
    c.framesInMemory.length = cfg.marcosPorProceso →
    (∃ k ∈ c.framesInMemory, inUse s.site.memory k.page = false) →
    useReplacementAlgorithm cfg s.site.memory pid = some (m', f) →
    ∀ v ∈ s.since, resident m' v = resident s.site.memory v

section Loads

theorem row_mark_use (f : ℤ) (rows : List ClockRow) (m : Memory) (r : PageRef) :
    row (markUse f rows m) r =
      if ∃ k ∈ rows, f = k.frameNumberInMemory ∧ k.page = r then
        (row m r).map fun x => { x with use := true }
      else row m r := by
  induction rows generalizing m with
  | nil => simp [markUse]
  | cons k rows ih =>
    rw [markUse, ih]
    by_cases hk : f = k.frameNumberInMemory
    · rw [if_pos hk, row_modify]
      by_cases hr : k.page = r
      · subst hr
        cases row m k.page <;> simp [hk]
      · have hr' : r ≠ k.page := fun h => hr h.symm
        simp [hr, hr']
    · simp [hk]

variable {cfg small : MemoryConfig} {m m' : Memory} {live : Live} {a : Access} {v : PageRef}

/-- A load sets the use bit of its page, wherever the CPU has its frame from. -/
theorem load_recorded (ha : Accounts small m live)
    (hl : live a.pcb.processId = some a.pcb.segmentTable) (hv : a.page = some v)
    (hres : resident m v = true) {answer : CpuResponse}
    (h : attendCpu cfg m (.movIn a.address a.pcb a.segmentNumber a.pageNumber) = some (m', answer))
    (hload : a.value = none) : Recorded m m' a v := by
  obtain ⟨x, hx, hp⟩ := (Option.any_eq_true _ _).mp hres
  have hlive : LiveRow m live a.pcb.processId v x := ⟨requested_owned hl hv, hx⟩
  obtain ⟨c, hc, hm⟩ := ha.clocks _ _ hl
  have hfound := update_page_use_found ha.holdings hl hv hx hc
  simp only [attendCpu, hfound, Option.bind_eq_bind, Option.bind_some,
    Option.bind_eq_some_iff] at h
  obtain ⟨value, -, h⟩ := h
  simp only [Option.some.injEq, Prod.mk.injEq] at h
  obtain ⟨rfl, -⟩ := h
  obtain ⟨k, hk, hpage, -⟩ := hm.pages v x hlive hp
  -- the row of the frame in the clock is the row of the page
  have hown : ∀ r, (∃ j ∈ c.framesInMemory, x.frameNumber = j.frameNumberInMemory ∧ j.page = r) ↔
      r = v := by
    obtain ⟨y, hy, -, hyf, -⟩ := hm.rows k hk (by simp)
    obtain rfl := Option.some.inj ((hpage ▸ hy.2).symm.trans hx)
    intro r
    constructor
    · rintro ⟨j, hj, hjf, rfl⟩
      rw [← hpage, List.inj_on_of_nodup_map hm.frames hj hk (hjf.symm.trans hyf)]
    · rintro rfl
      exact ⟨k, hk, hyf, hpage⟩
  refine ⟨?_, fun hstore => absurd hload hstore, fun r hr => ?_⟩
  · simp only [inUse, row_mark_use]
    rw [if_pos ((hown v).mpr rfl), hx]
    rfl
  · rw [row_mark_use, if_neg (mt (hown r).mp hr)]

/-- The effect of a store that was served. -/
structure Marks (cfg : MemoryConfig) (m m' : Memory) (a : Access) (v : PageRef) (i : ℕ) : Prop where
  found : storedRow cfg m a v = some i
  present : (row m ⟨v.table, i⟩).isSome
  marks : ∀ r, row m' r =
    if r = ⟨v.table, i⟩ then (row m r).map fun x => { x with modified := true } else row m r

theorem store_marks_row (hid : ∀ (i : ℕ) t, m.allPageTables[i]? = some t → t.id = i)
    {value : UInt32} {pid : ℤ} {answer : CpuResponse}
    (h : attendCpu cfg m (.movOut a.address value v.table pid) = some (m', answer)) :
    ∃ i, Marks cfg m m' a v i := by
  obtain ⟨t, table, i, ht, htable, hi, rfl⟩ := save_value_found hid (attend_mov_out_some h)
  obtain rfl : v.table = t := by exact_mod_cast ht
  obtain ⟨j, x, rfl, hx, -⟩ := search_row_some table.pagesList 0 hi
  rw [zero_add] at hi ⊢
  refine ⟨j, by simp [storedRow, htable, hi], by simp [row, htable, hx], fun r => ?_⟩
  exact row_modify m ⟨v.table, j⟩ r _

/-- A store is recorded if the page was in use, and its row was found or makes no difference. -/
theorem store_recorded_iff {i : ℕ} (h : Marks cfg m m' a v i) (hstore : a.value ≠ none) :
    Recorded m m' a v ↔ Recordable cfg m a v := by
  have huse : inUse m' v = inUse m v := by
    unfold inUse
    rw [h.marks]
    split <;> cases row m v <;> rfl
  have hcond : Recordable cfg m a v ↔ inUse m v = true ∧
      (i = v.page ∨ (isModified m v = true ∧ isModified m ⟨v.table, i⟩ = true)) := by
    simp [Recordable, hstore, h.found]
  rw [hcond]
  obtain ⟨y, hy⟩ := Option.isSome_iff_exists.mp h.present
  constructor
  · intro hr
    refine ⟨huse ▸ hr.use, ?_⟩
    by_cases hi : i = v.page
    · exact Or.inl hi
    · have hne : v ≠ ⟨v.table, i⟩ := fun he => hi (congrArg PageRef.page he).symm
      have hmodified := hr.modified hstore
      have hother := hr.others ⟨v.table, i⟩ hne.symm
      unfold isModified at hmodified ⊢
      rw [h.marks, if_neg hne] at hmodified
      rw [h.marks, if_pos rfl, hy] at hother
      refine Or.inr ⟨hmodified, ?_⟩
      simp only [Option.map_some, Option.some.injEq, bits, Prod.mk.injEq] at hother
      simp [hy, ← hother.2]
  · rintro ⟨hused, hi⟩
    have hrow : i = v.page → (⟨v.table, i⟩ : PageRef) = v := fun he => by rw [he]
    refine ⟨huse.trans hused, fun _ => ?_, fun r hr => ?_⟩
    · unfold isModified at hi ⊢
      rw [h.marks]
      split
      · next he =>
        rw [he, hy]
        rfl
      · next hne => exact (hi.resolve_left fun he => hne (hrow he).symm).1
    · rw [h.marks]
      split
      · next he =>
        have hmodified := (hi.resolve_left fun he' => hr (he.trans (hrow he'))).2
        unfold isModified at hmodified
        rw [hy] at hmodified
        have hset : y.modified = true := by simpa using hmodified
        rw [he, hy]
        simp [bits, hset]
      · rfl

/-- Right after it was served, an access is recorded exactly when it can be. -/
theorem access_recorded_iff (ha : Accounts small m live)
    (hl : live a.pcb.processId = some a.pcb.segmentTable) (hv : a.page = some v)
    (hres : resident m v = true) {q : CpuRequest} {answer : CpuResponse} (hq : a.request = some q)
    (h : attendCpu cfg m q = some (m', answer)) : Recorded m m' a v ↔ Recordable cfg m a v := by
  cases hvalue : a.value with
  | none =>
    obtain rfl : CpuRequest.movIn a.address a.pcb a.segmentNumber a.pageNumber = q := by
      simpa [Access.request, hvalue] using hq
    exact iff_of_true (load_recorded ha hl hv hres h hvalue) (Or.inl hvalue)
  | some value =>
    obtain ⟨segment, hsegment, hindex, -⟩ := requested_segment hv
    obtain rfl : CpuRequest.movOut a.address value v.table a.pcb.processId = q := by
      simpa [Access.request, hvalue, hsegment, hindex] using hq
    obtain ⟨i, hmarks⟩ := store_marks_row ha.holdings.ids h
    exact store_recorded_iff hmarks (by simp [hvalue])

end Loads

section Hands
variable {cfg : MemoryConfig} {m m' : Memory} {r : PageRef}

theorem replace_by_clock_use {v : PageRef} (h : replaceByClock cfg m v = some m') :
    inUse m' r = inUse m r := by
  unfold inUse
  rw [replace_by_clock_row h]
  split
  · cases row m r <;> rfl
  · rfl

theorem clear_use_other {v : PageRef} (hr : r ≠ v) : inUse (clearUse m v) r = inUse m r := by
  unfold inUse clearUse
  rw [row_modify, if_neg hr]

/-- The hand clears no use bit but those of the pages it passes. -/
theorem simple_clock_use {rows : List ClockRow} (fuel : ℕ) {p next : ℕ} {f : ℤ}
    (h : simpleClockLoop cfg rows fuel m p = some (m', next, f))
    (hr : r ∉ simpleClockPasses cfg rows fuel m p) : inUse m' r = inUse m r := by
  induction fuel generalizing m p with
  | zero => simp [simpleClockLoop] at h
  | succ fuel ih =>
    simp only [simpleClockLoop, Option.bind_eq_bind, Option.bind_eq_some_iff] at h
    obtain ⟨k, hk, x, hx, h⟩ := h
    have huse : inUse m k.page = x.use := by simp [inUse, hx]
    simp only [simpleClockPasses, hk, huse] at hr
    split at h
    · obtain ⟨replaced, hreplaced, h⟩ := Option.bind_eq_some_iff.mp h
      simp only [Option.some.injEq, Prod.mk.injEq] at h
      rw [← h.1]
      exact replace_by_clock_use hreplaced
    · next hset =>
      rw [Bool.not_eq_false] at hset
      rw [if_pos hset, List.mem_cons, not_or] at hr
      exact (ih h hr.2).trans (clear_use_other hr.1)

theorem modified_clock_use {rows : List ClockRow} {start : ℕ} (fuel : ℕ) {pass : ClockPass}
    {p next : ℕ} {f : ℤ} (h : modifiedClockLoop cfg rows start fuel pass m p = some (m', next, f))
    (hr : r ∉ modifiedClockPasses cfg rows start fuel pass m p) : inUse m' r = inUse m r := by
  induction fuel generalizing m p pass with
  | zero => simp [modifiedClockLoop] at h
  | succ fuel ih =>
    simp only [modifiedClockLoop, Option.bind_eq_bind, Option.bind_eq_some_iff] at h
    obtain ⟨k, hk, x, hx, h⟩ := h
    have huse : inUse m k.page = x.use := by simp [inUse, hx]
    have hmodified : isModified m k.page = x.modified := by simp [isModified, hx]
    simp only [modifiedClockPasses, hk, huse, hmodified] at hr
    split at h
    · obtain ⟨replaced, hreplaced, h⟩ := Option.bind_eq_some_iff.mp h
      simp only [Option.some.injEq, Prod.mk.injEq] at h
      rw [← h.1]
      exact replace_by_clock_use hreplaced
    · next hnot =>
      rw [if_neg hnot] at hr
      cases pass with
      | first =>
        simp only [List.mem_cons, not_or] at hr
        exact ih h hr.2
      | second =>
        simp only [List.mem_cons, not_or] at hr
        exact (ih h hr.2).trans (clear_use_other hr.1)

theorem choose_frame_use {pid f : ℤ} (h : chooseFrame cfg m pid = some (m', f))
    (hr : r ∉ handPasses cfg m pid) : inUse m' r = inUse m r := by
  obtain ⟨c, hc, ⟨hfull, h⟩ | ⟨-, -, rfl⟩⟩ := choose_frame_some h
  · simp only [handPasses, getStructClock, hc] at hr
    rw [if_pos hfull] at hr
    unfold useReplacementAlgorithm at h
    split at h
    · next halg =>
      simp only [halg] at hr
      simp only [modifiedClock, getStructClock, hc, Option.bind_eq_bind, Option.bind_some,
        Option.bind_eq_some_iff] at h
      obtain ⟨⟨turned, next, victim⟩, hloop, h⟩ := h
      simp only [Option.some.injEq, Prod.mk.injEq] at h
      rw [← h.1]
      have hkept := modified_clock_use _ hloop hr
      exact hkept
    · next halg =>
      simp only [halg] at hr
      simp only [simpleClock, getStructClock, hc, Option.bind_eq_bind, Option.bind_some,
        Option.bind_eq_some_iff] at h
      obtain ⟨⟨turned, next, victim⟩, hloop, h⟩ := h
      simp only [Option.some.injEq, Prod.mk.injEq] at h
      rw [← h.1]
      have hkept := simple_clock_use _ hloop hr
      exact hkept
    · simp only [Option.some.injEq, Prod.mk.injEq] at h
      rw [h.1]
  · rfl

theorem load_page_use {pid f : ℤ} {v : PageRef} (h : loadPage cfg m pid v f = some m')
    (hr : inUse m r = true) : inUse m' r = true := by
  obtain ⟨x, value, bitmap, c, -, -, -, -, rfl⟩ := load_page_some h
  have hrow : row (modifyRow m v (loadedRow f)) r =
      if r = v then (row m r).map (loadedRow f) else row m r := row_modify m v r _
  show (row (modifyRow m v (loadedRow f)) r).any PageTableRow.use = true
  rw [hrow]
  obtain ⟨y, hy, hused⟩ := (Option.any_eq_true _ _).mp hr
  split
  · rw [hy]
    rfl
  · exact hr

/-- A request of the kernel leaves the use bit of a page set that its hand does not pass. -/
theorem kernel_use {q : KernelRequest} {answer : Option KernelResponse} (ht : Tabled m)
    (h : attendKernel cfg m q = some (m', answer)) (hr : r ∉ passes cfg m q)
    (hused : inUse m r = true) : inUse m' r = true := by
  cases q with
  | initProcessStructuresMemory pcb =>
    obtain ⟨built, hinit, -⟩ := attend_init_some h
    obtain ⟨segments, -, hbuilds⟩ := init_process_structures_builds ht hinit
    obtain ⟨x, hx, -⟩ := (Option.any_eq_true _ _).mp hused
    have hlt : r.table < m.allPageTables.length := by
      by_contra hge
      simp [row, List.getElem?_eq_none (Nat.le_of_not_lt hge)] at hx
    unfold inUse row at hused ⊢
    rwa [hbuilds.old r.table hlt]
  | requestPageFault pcb sn pn =>
    obtain rfl | ⟨t, chosen, f, hchosen, hloaded⟩ := page_fault_some h
    · exact hused
    · exact load_page_use hloaded ((choose_frame_use hchosen hr).trans hused)
  | endStructures pcb =>
    obtain ⟨hdelete, -⟩ := attend_end_some h
    obtain ⟨memory, swap, -, rfl⟩ := delete_process_some hdelete
    exact hused

theorem cpu_use (hid : ∀ (i : ℕ) t, m.allPageTables[i]? = some t → t.id = i) {q : CpuRequest}
    {answer : CpuResponse} (h : attendCpu cfg m q = some (m', answer)) (hused : inUse m r = true) :
    inUse m' r = true := by
  obtain ⟨x, hx, hset⟩ := (Option.any_eq_true _ _).mp hused
  obtain rfl | ⟨address, value, index, hsaved⟩ | ⟨frame, rows, rfl⟩ := attend_cpu_cases h
  · exact hused
  · obtain ⟨t, table, i, -, -, -, rfl⟩ := save_value_found hid hsaved
    show (row (modifyRow m ⟨t, i⟩ fun x => { x with modified := true }) r).any _ = true
    rw [row_modify, hx]
    split <;> simpa using hset
  · unfold inUse
    rw [row_mark_use, hx]
    split
    · rfl
    · simpa using hset

end Hands

/-- The accounts of the frames the bitmaps have, and a use bit for each reference. -/
structure Referenced (cfg : MemoryConfig) (s : Traced) : Prop where
  accounts : Accounts (bitmapConfig cfg) s.site.memory s.site.live
  inUse : ∀ v ∈ s.since, inUse s.site.memory v = true

section Runs
variable {cfg : MemoryConfig} (hframes : 1 ≤ cfg.marcosPorProceso)
include hframes

theorem trace_step_accounts (s : Traced) (e : Event) (s' : Traced)
    (ha : Accounts (bitmapConfig cfg) s.site.memory s.site.live) (he : AllowedEvent s e)
    (h : traceStep cfg s e = some s') :
    Accounts (bitmapConfig cfg) s'.site.memory s'.site.live := by
  cases e with
  | kernel q =>
    simp only [traceStep, Option.bind_eq_bind, Option.bind_eq_some_iff] at h
    obtain ⟨site, hsite, h⟩ := h
    obtain rfl := Option.some.inj h
    exact site_step_served hframes s.site (.kernel q) site ha he hsite
  | access a =>
    simp only [traceStep, Option.bind_eq_bind, Option.bind_eq_some_iff] at h
    obtain ⟨q, -, site, hsite, h⟩ := h
    obtain rfl := Option.some.inj h
    exact site_step_served hframes s.site (.cpu q) site ha trivial hsite

omit hframes in
/-- An access leaves use bits set, and sets that of a resident page when it can be recorded. -/
theorem access_use {s : Traced} {a : Access} {q : CpuRequest} {m' : Memory} {answer : CpuResponse}
    (hs : Referenced cfg s) (hl : s.site.live a.pcb.processId = some a.pcb.segmentTable)
    (hrecords : RecordsAccess cfg s (.access a)) (hq : a.request = some q)
    (h : attendCpu cfg s.site.memory q = some (m', answer)) {r : PageRef}
    (hr : r ∈ a.page.filter (resident s.site.memory) ∨ inUse s.site.memory r = true) :
    inUse m' r = true := by
  obtain hr | hused := hr
  · obtain ⟨hv, hres⟩ := Option.mem_filter_iff.mp hr
    have hrecorded := access_recorded_iff hs.accounts hl hv hres hq h
    exact (hrecorded.mpr (hrecords r hr)).use
  · exact cpu_use hs.accounts.holdings.ids h hused

theorem trace_step_referenced (s : Traced) (e : Event) (s' : Traced) (hs : Referenced cfg s)
    (he : AllowedEvent s e ∧ RecordsAccess cfg s e) (h : traceStep cfg s e = some s') :
    Referenced cfg s' := by
  refine ⟨trace_step_accounts hframes s e s' hs.accounts he.1 h, ?_⟩
  cases e with
  | kernel q =>
    simp only [traceStep, siteStep, Option.bind_eq_bind, Option.bind_eq_some_iff] at h
    obtain ⟨site, ⟨⟨m', answer⟩, hm', hsite⟩, h⟩ := h
    obtain rfl := Option.some.inj hsite
    obtain rfl := Option.some.inj h
    intro v hv
    obtain ⟨hsince, hnot⟩ := List.mem_filter.mp hv
    have hold := hs.accounts.holdings
    exact kernel_use ⟨hold.ids, hold.counter⟩ hm' (by simpa using hnot) (hs.inUse v hsince)
  | access a =>
    simp only [traceStep, siteStep, Option.bind_eq_bind, Option.bind_eq_some_iff] at h
    obtain ⟨q, hq, site, ⟨⟨m', answer⟩, hm', hsite⟩, h⟩ := h
    obtain rfl := Option.some.inj hsite
    obtain rfl := Option.some.inj h
    intro v hv
    refine access_use hs he.1 he.2 hq hm' ?_
    obtain hv | hv := List.mem_append.mp hv
    · exact Or.inl (Option.mem_toList.mp hv)
    · exact Or.inr (hs.inUse v hv)

end Runs

section Victims
variable {cfg : MemoryConfig} {m : Memory} {pid : ℤ} {c : ClockStruct}

/-- The victim is the only page that leaves main memory. -/
theorem replaced_spares {result : Option (Memory × ℤ)} {place : ℕ} {k : ClockRow}
    {cleared : List ClockRow} (hreplaced : Replaced cfg m pid c result place k cleared)
    (hvictim : inUse m k.page = false) {m' : Memory} {f : ℤ} (h : result = some (m', f))
    {v : PageRef} (hv : inUse m v = true) : resident m' v = resident m v := by
  have hreturned := hreplaced.returned
  rw [h] at hreturned
  obtain ⟨replaced, hm₁, heq⟩ := Option.map_eq_some_iff.mp hreturned.symm
  obtain ⟨rfl, -⟩ := Prod.mk.inj heq
  have hne : v ≠ k.page := by
    rintro rfl
    simp [hvictim] at hv
  show (row replaced v).any PageTableRow.presence = (row m v).any PageTableRow.presence
  rw [replace_by_clock_row hm₁, if_neg hne, row_clear_pages]
  split
  · cases row m v <;> rfl
  · rfl

/-- While a page of a full clock is not in use, the victim is not in use. -/
theorem replacement_spares (hmax : cfg.marcosPorProceso ≤ 65535)
    (hclock : m.clockStructures pid = some c) (hfull : FullClock cfg m c.framesInMemory)
    (hp : c.pointer < cfg.marcosPorProceso)
    (hunused : ∃ k ∈ c.framesInMemory, inUse m k.page = false) {m' : Memory} {f : ℤ}
    (h : useReplacementAlgorithm cfg m pid = some (m', f)) {v : PageRef} (hv : inUse m v = true) :
    resident m' v = resident m v := by
  obtain ⟨j, hj, hjunused⟩ := hunused
  unfold useReplacementAlgorithm at h
  split at h
  · obtain ⟨q, d, k, -, hbest⟩ := best_class cfg m pid c hclock hfull hmax hp
    -- a page that is not in use is of one of the two lowest classes
    have hclass := (hbest.member.trans_le (hbest.lowest j hj))
    have hj' : pageClass m j ≤ 1 := by
      have : used m j = false := hjunused
      unfold pageClass
      rw [this]
      cases modifiedBit m j <;> simp
    have hk : used m k = false := by
      by_contra hset
      rw [Bool.not_eq_false] at hset
      unfold pageClass at hclass hj'
      rw [hset] at hclass
      simp only [Bool.toNat_true] at hclass
      omega
    exact replaced_spares hbest.replaced hk h hv
  · obtain ⟨t, k, -, hchance⟩ := second_chance cfg m pid c hclock hfull hmax hp
    obtain ⟨-, hk, -⟩ | ⟨-, hall⟩ := hchance.victim
    · exact replaced_spares hchance.replaced hk h hv
    · have hset := hall j hj
      exact absurd (hset.symm.trans hjunused) (by simp)
  · simp only [Option.some.injEq, Prod.mk.injEq] at h
    rw [h.1]

theorem mirror_full {small : MemoryConfig} {live : Live} {segments : List Segment}
    (hlimit : small.marcosPorProceso = cfg.marcosPorProceso) (hl : live pid = some segments)
    (hm : Mirror small m live pid c none) (hfull : c.framesInMemory.length = cfg.marcosPorProceso) :
    FullClock cfg m c.framesInMemory ∧ c.pointer < cfg.marcosPorProceso := by
  have hmirror := mirror_residency hl hm
  refine ⟨⟨hfull, hmirror.pages, fun k hk => ?_⟩, hlimit ▸ hm.pointer⟩
  obtain ⟨x, hx, -⟩ := hmirror.places k hk
  simp [hx]

theorem referenced_spared (hmax : cfg.marcosPorProceso ≤ 65535) {s : Traced}
    (hs : Referenced cfg s) : SparesReferenced cfg s := by
  intro pid segments c m' f hl hc hlength hunused h v hv
  obtain ⟨c', hc', hm⟩ := hs.accounts.clocks pid segments hl
  obtain rfl := Option.some.inj (hc.symm.trans hc')
  have hlimit : (bitmapConfig cfg).marcosPorProceso = cfg.marcosPorProceso := rfl
  obtain ⟨hfull, hp⟩ := mirror_full hlimit hl hm hlength
  exact replacement_spares hmax hc hfull hp hunused h (hs.inUse v hv)

end Victims

/-- In every state that served requests lead to, an access is recorded exactly when it can be;
and in a run in which every access can, no page accessed since the hand passed it is taken
while another is not in use. -/
theorem references_recorded_iff (cfg : MemoryConfig) (hframes : 1 ≤ cfg.marcosPorProceso)
    (ram swap : ℕ → UInt8) (events : List Event) (s : Traced)
    (ha : Guarded (traceStep cfg) AllowedEvent (start cfg ram swap) events)
    (h : run (traceStep cfg) (start cfg ram swap) events = some s) :
    (∀ a v q m' answer, s.site.live a.pcb.processId = some a.pcb.segmentTable →
      a.page = some v → resident s.site.memory v = true → a.request = some q →
      attendCpu cfg s.site.memory q = some (m', answer) →
      (Recorded s.site.memory m' a v ↔ Recordable cfg s.site.memory a v)) ∧
    (cfg.marcosPorProceso ≤ 65535 →
      Guarded (traceStep cfg) (RecordsAccess cfg) (start cfg ram swap) events →
      SparesReferenced cfg s) := by
  have hboot : Accounts (bitmapConfig cfg) (start cfg ram swap).site.memory
    (start cfg ram swap).site.live := boot_bitmaps cfg ram swap
  constructor
  · intro a v q m' answer hl hv hres hq hserved
    have haccounts := guarded_run (traceStep cfg) (fun s => Accounts (bitmapConfig cfg)
      s.site.memory s.site.live) AllowedEvent (trace_step_accounts hframes) events _ s hboot ha h
    exact access_recorded_iff haccounts hl hv hres hq hserved
  · intro hmax hrecords
    have hreferenced := guarded_run (traceStep cfg) (Referenced cfg)
      (fun s e => AllowedEvent s e ∧ RecordsAccess cfg s e) (trace_step_referenced hframes) events
      _ s ⟨hboot, by simp [start]⟩ (guarded_and _ _ _ events _ ha hrecords) h
    exact referenced_spared hmax hreferenced

def smallLoad : Access := ⟨smallPcb 0, 0, 0, 0, none⟩

def smallEvents : List Event :=
  [.kernel (.initProcessStructuresMemory (smallPcb (-1))),
    .kernel (.requestPageFault (smallPcb 0) 0 0), .access smallLoad]

def smallTrace : Traced :=
  reached (traceStep smallConfig) (start smallConfig zeros zeros) smallEvents

theorem references_recorded_small :
    (∃ m' answer, attendCpu smallConfig smallTrace.site.memory (.movIn 0 (smallPcb 0) 0 0) =
      some (m', answer) ∧ Recorded smallTrace.site.memory m' smallLoad ⟨0, 0⟩) ∧
    SparesReferenced smallConfig smallTrace := by
  obtain ⟨hrecorded, hspared⟩ := references_recorded_iff smallConfig (by decide) zeros zeros
    smallEvents smallTrace (by decide +kernel) (run_reached _ _ _ (by decide +kernel))
  have hserved : (attendCpu smallConfig smallTrace.site.memory
      (.movIn 0 (smallPcb 0) 0 0)).isSome = true := by decide +kernel
  obtain ⟨⟨m', answer⟩, hserved⟩ := Option.isSome_iff_exists.mp hserved
  refine ⟨⟨m', answer, hserved, ?_⟩, hspared (by decide) (by decide +kernel)⟩
  exact (hrecorded smallLoad ⟨0, 0⟩ _ m' answer (by decide +kernel) (by decide) (by decide +kernel)
    rfl hserved).mpr (Or.inl rfl)

/-- Three frames for each process. -/
def threeConfig : MemoryConfig := { smallConfig with marcosPorProceso := 3 }

def fourPcb (indexPage : ℤ) : Pcb :=
  { smallPcb indexPage with segmentTable := [{ indexPage := indexPage, number := 0, size := 16 }] }

def storeAccess : Access := ⟨fourPcb 0, 0, 1, 4, some 7⟩

/-- The fourth page takes the frame of the first, and the hand has passed the other two. -/
def fourFaults : List Event :=
  .kernel (.initProcessStructuresMemory (fourPcb (-1)))::
    (List.range 4).map fun n => .kernel (.requestPageFault (fourPcb 0) 0 n)

def faultTrace : Traced :=
  reached (traceStep threeConfig) (start threeConfig zeros zeros) fourFaults

def storeTrace : Traced :=
  reached (traceStep threeConfig) (start threeConfig zeros zeros) (fourFaults++[.access storeAccess])

/-- The store leaves the use bit of its page clear, and its page is the next victim although
the one behind it was not accessed. -/
theorem store_unrecorded :
    Guarded (traceStep threeConfig) AllowedEvent (start threeConfig zeros zeros)
      (fourFaults++[.access storeAccess]) ∧
    run (traceStep threeConfig) (start threeConfig zeros zeros) (fourFaults++[.access storeAccess]) =
      some storeTrace ∧
    ¬Recorded faultTrace.site.memory storeTrace.site.memory storeAccess ⟨0, 1⟩ ∧
    ¬SparesReferenced threeConfig storeTrace := by
  refine ⟨by decide +kernel, run_reached _ _ _ (by decide +kernel), fun h => ?_, fun h => ?_⟩
  · have hunused : inUse storeTrace.site.memory ⟨0, 1⟩ = false := by decide +kernel
    simp [h.use] at hunused
  · have hclock : (storeTrace.site.memory.clockStructures 1).any (fun c =>
        decide (c.framesInMemory.length = 3) && c.framesInMemory.any fun k =>
          decide (k.page = ⟨0, 2⟩) && !inUse storeTrace.site.memory k.page) = true := by
      decide +kernel
    have hevicted : (useReplacementAlgorithm threeConfig storeTrace.site.memory 1).any (fun r =>
        !resident r.1 ⟨0, 1⟩) = true := by decide +kernel
    obtain ⟨c, hc, hunused⟩ := (Option.any_eq_true _ _).mp hclock
    obtain ⟨⟨m', f⟩, hchosen, hgone⟩ := (Option.any_eq_true _ _).mp hevicted
    simp only [Bool.and_eq_true, decide_eq_true_eq, List.any_eq_true] at hunused
    obtain ⟨hlength, k, hk, -, hclear⟩ := hunused
    have hkept := h 1 (fourPcb 0).segmentTable c m' f (by decide +kernel) hc hlength
      ⟨k, hk, by simpa using hclear⟩ hchosen ⟨0, 1⟩ (by decide +kernel)
    have hresident : resident storeTrace.site.memory ⟨0, 1⟩ = true := by decide +kernel
    simp [hkept, hresident] at hgone

end Geck.ReferenceBits
