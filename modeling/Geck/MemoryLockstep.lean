import Geck.FlatMemory
import Geck.PairedRuns

/-!
# What the bytes of the pages do not decide

Two memories with the same tables, bitmaps and clocks take the same decisions,
whatever bytes they hold: every request leaves them so again, is answered alike
but for the value of a load, and is refused by both or by none.
-/

set_option autoImplicit false

namespace Geck.MemoryLockstep
open Geck.PairedRuns Geck.BlockStore Geck.SharedPcb Geck.MemoryState Geck.MemoryPaging
open Geck.MemoryHandlers Geck.MemoryAccounting Geck.MemorySystem Geck.FlatMemory

/-- The memories differ in bytes of main memory and swap only. -/
def SameControl (m m' : Memory) : Prop :=
  ∃ ram swap, m' = { m with principalMemory := ram, swapFile := swap }

/-- Results alike but for the bytes. -/
abbrev Alike {α : Type} (p p' : Memory × α) : Prop := SameControl p.1 p'.1 ∧ p.2 = p'.2

section Paging
variable {cfg : MemoryConfig} {m m' : Memory} (h : SameControl m m')
include h

theorem row_alike (r : PageRef) : row m' r = row m r := by
  obtain ⟨ram, swap, rfl⟩ := h
  rfl

theorem modify_alike (r : PageRef) (f : PageTableRow → PageTableRow) :
    SameControl (modifyRow m r f) (modifyRow m' r f) := by
  obtain ⟨ram, swap, rfl⟩ := h
  exact ⟨ram, swap, rfl⟩

theorem set_clock_alike (pid : ℤ) (clock : ClockStruct) :
    SameControl (setStructClock m pid clock) (setStructClock m' pid clock) := by
  obtain ⟨ram, swap, rfl⟩ := h
  exact ⟨ram, swap, rfl⟩

omit h in
theorem read_frame_defined (frame : ℤ) :
    Option.Rel (fun _ _ => True) (readFrame cfg m frame) (readFrame cfg m' frame) := by
  unfold readFrame
  split
  · exact Option.Rel.some trivial
  · exact Option.Rel.none

theorem write_page_swap_alike (position : ℤ) (value value' : ℕ → UInt8) :
    Option.Rel SameControl (writePageSwap cfg m position value)
      (writePageSwap cfg m' position value') := by
  obtain ⟨ram, swap, rfl⟩ := h
  unfold writePageSwap
  split
  · exact Option.Rel.some ⟨_, _, rfl⟩
  · exact Option.Rel.none

theorem replace_by_clock_alike (page : PageRef) :
    Option.Rel SameControl (replaceByClock cfg m page) (replaceByClock cfg m' page) := by
  have hfinish : ∀ (victim : PageTableRow) (a a' : Memory), SameControl a a' →
      Option.Rel SameControl
        ((writeBit (modifyRow a page fun r => { r with presence := false }).bitmapMemory
          victim.frameNumber false).bind fun bitmap =>
          some { modifyRow a page fun r => { r with presence := false } with
            bitmapMemory := bitmap })
        ((writeBit (modifyRow a' page fun r => { r with presence := false }).bitmapMemory
          victim.frameNumber false).bind fun bitmap =>
          some { modifyRow a' page fun r => { r with presence := false } with
            bitmapMemory := bitmap }) := by
    rintro victim a a' ⟨ram, swap, rfl⟩
    apply rel_bind_same (writeBit a.bitmapMemory victim.frameNumber false)
    intro bitmap
    exact Option.Rel.some ⟨ram, swap, rfl⟩
  unfold replaceByClock
  rw [row_alike h]
  apply rel_bind_same (row m page)
  intro victim
  cases hmod : victim.modified with
  | false => exact hfinish victim m m' h
  | true =>
    apply rel_bind (read_frame_defined victim.frameNumber)
    intro value value' _
    apply rel_bind (write_page_swap_alike h victim.swapPosition value value')
    intro a a' ha
    exact hfinish victim _ _ (modify_alike ha page _)

theorem simple_clock_loop_alike (rows : List ClockRow) (fuel clockPointer : ℕ) :
    Option.Rel Alike (simpleClockLoop cfg rows fuel m clockPointer)
      (simpleClockLoop cfg rows fuel m' clockPointer) := by
  induction fuel generalizing m m' clockPointer with
  | zero => exact Option.Rel.none
  | succ fuel ih =>
    unfold simpleClockLoop
    apply rel_bind_same rows[clockPointer]?
    intro clockRow
    rw [row_alike h]
    apply rel_bind_same (row m clockRow.page)
    intro page
    by_cases huse : page.use = false
    · simp only [huse, if_true]
      apply rel_bind (replace_by_clock_alike h clockRow.page)
      intro a a' ha
      exact Option.Rel.some ⟨ha, rfl⟩
    · simp only [huse]
      exact ih (modify_alike h clockRow.page _) _

theorem modified_clock_loop_alike (rows : List ClockRow) (start fuel : ℕ) (pass : ClockPass)
    (clockPointer : ℕ) :
    Option.Rel Alike (modifiedClockLoop cfg rows start fuel pass m clockPointer)
      (modifiedClockLoop cfg rows start fuel pass m' clockPointer) := by
  induction fuel generalizing m m' pass clockPointer with
  | zero => exact Option.Rel.none
  | succ fuel ih =>
    unfold modifiedClockLoop
    apply rel_bind_same rows[clockPointer]?
    intro clockRow
    rw [row_alike h]
    apply rel_bind_same (row m clockRow.page)
    intro page
    by_cases hvictim : page.use = false ∧ page.modified = decide (pass = .second)
    · simp only [hvictim, and_self, if_true]
      apply rel_bind (replace_by_clock_alike h clockRow.page)
      intro a a' ha
      exact Option.Rel.some ⟨ha, rfl⟩
    · simp only [hvictim, if_false]
      cases pass with
      | first => exact ih h _ _
      | second => exact ih (modify_alike h clockRow.page _) _ _

theorem use_replacement_alike (pid : ℤ) :
    Option.Rel Alike (useReplacementAlgorithm cfg m pid) (useReplacementAlgorithm cfg m' pid) := by
  have hclock : getStructClock m' pid = getStructClock m pid := by
    obtain ⟨ram, swap, rfl⟩ := h
    rfl
  unfold useReplacementAlgorithm
  cases cfg.algoritmoReemplazo with
  | clock =>
    show Option.Rel Alike (simpleClock cfg m pid) (simpleClock cfg m' pid)
    unfold simpleClock
    rw [hclock]
    apply rel_bind_same (getStructClock m pid)
    intro clock
    apply rel_bind (simple_clock_loop_alike h clock.framesInMemory _ clock.pointer)
    rintro ⟨a, p, f⟩ ⟨a', p', f'⟩ ⟨ha, he⟩
    cases he
    exact Option.Rel.some ⟨set_clock_alike ha pid _, rfl⟩
  | clockM =>
    show Option.Rel Alike (modifiedClock cfg m pid) (modifiedClock cfg m' pid)
    unfold modifiedClock
    rw [hclock]
    apply rel_bind_same (getStructClock m pid)
    intro clock
    apply rel_bind (modified_clock_loop_alike h clock.framesInMemory clock.pointer _ .first
      clock.pointer)
    rintro ⟨a, p, f⟩ ⟨a', p', f'⟩ ⟨ha, he⟩
    cases he
    exact Option.Rel.some ⟨set_clock_alike ha pid _, rfl⟩
  | other => exact Option.Rel.some ⟨h, rfl⟩

theorem choose_frame_alike (pid : ℤ) :
    Option.Rel Alike (chooseFrame cfg m pid) (chooseFrame cfg m' pid) := by
  have hframes : framesInMemoryOfProcess m' pid = framesInMemoryOfProcess m pid := by
    obtain ⟨ram, swap, rfl⟩ := h
    rfl
  have hbits : m'.bitmapMemory = m.bitmapMemory := by
    obtain ⟨ram, swap, rfl⟩ := h
    rfl
  unfold chooseFrame
  rw [hframes, hbits]
  apply rel_bind_same (framesInMemoryOfProcess m pid)
  intro frames
  split
  · exact use_replacement_alike h pid
  · apply rel_bind_same (findPageFree cfg m.bitmapMemory)
    intro frame
    exact Option.Rel.some ⟨h, rfl⟩

theorem load_page_alike (pid : ℤ) (page : PageRef) (frame : ℤ) :
    Option.Rel SameControl (loadPage cfg m pid page frame) (loadPage cfg m' pid page frame) := by
  obtain ⟨ram, swap, rfl⟩ := h
  unfold loadPage
  apply rel_bind_same (row m page)
  intro pageToLoad
  unfold readPageSwap writeFrame
  by_cases hs : 0 ≤ pageToLoad.swapPosition ∧ pageToLoad.swapPosition < swapPages cfg
  · by_cases hf : 0 ≤ frame ∧ frame < ramPages cfg
    · simp only [hs, hf, and_self, if_true, Option.bind_eq_bind, Option.bind_some]
      apply rel_bind_same (writeBit m.bitmapMemory frame true)
      intro bitmap
      apply rel_bind_same (getStructClock m pid)
      intro clock
      exact Option.Rel.some ⟨_, _, rfl⟩
    · simp only [hs, hf, and_self, if_true, if_false, Option.bind_eq_bind, Option.bind_some,
        Option.bind_none]
      exact Option.Rel.none
  · simp only [hs, if_false, Option.bind_eq_bind, Option.bind_none]
    exact Option.Rel.none

theorem request_page_fault_alike (pcb : Pcb) (sn pn : ℤ) :
    Option.Rel Alike (requestPageFault cfg m pcb sn pn) (requestPageFault cfg m' pcb sn pn) := by
  have htable : ∀ index, getPageTableByIndex m' index = getPageTableByIndex m index := by
    obtain ⟨ram, swap, rfl⟩ := h
    intro index
    rfl
  unfold requestPageFault
  apply rel_bind_same (listGet pcb.segmentTable sn)
  intro segment
  rw [htable]
  cases getPageTableByIndex m segment.indexPage with
  | none => exact Option.Rel.some ⟨h, rfl⟩
  | some t =>
    by_cases hpn : 0 ≤ pn
    · simp only [hpn, if_true]
      apply rel_bind (choose_frame_alike h pcb.processId)
      rintro ⟨a, f⟩ ⟨a', f'⟩ ⟨ha, he⟩
      cases he
      apply rel_bind (load_page_alike ha pcb.processId _ f)
      intro b b' hb
      exact Option.Rel.some ⟨hb, rfl⟩
    · simp only [hpn, if_false]
      exact Option.Rel.none

variable (cfg) in
theorem init_segments_alike (segments : List Segment) (i : ℤ) :
    Option.Rel (fun p p' => p.1 = p'.1 ∧ SameControl p.2 p'.2)
      (initSegments cfg segments i m) (initSegments cfg segments i m') := by
  induction segments generalizing i m m' with
  | nil => exact Option.Rel.some ⟨rfl, h⟩
  | cons segment rest ih =>
    obtain ⟨ram, swap, rfl⟩ := h
    unfold initSegments
    apply rel_bind_same (builderPageTable cfg m.pageTablesCounter segment.size i m.bitmapSwap)
    rintro ⟨table, bitmap⟩
    refine rel_bind (ih ⟨ram, swap, rfl⟩ (i+1)) ?_
    rintro ⟨rows, a⟩ ⟨rows', a'⟩ ⟨he, ha⟩
    cases he
    exact Option.Rel.some ⟨rfl, ha⟩

theorem delete_segments_alike (segments : List Segment) (bitmaps : List Bool × List Bool) :
    deleteSegments m' segments bitmaps = deleteSegments m segments bitmaps := by
  obtain ⟨ram, swap, rfl⟩ := h
  induction segments generalizing bitmaps with
  | nil => rfl
  | cons segment rest ih =>
    simp only [deleteSegments, ih]
    rfl

/-- The kernel is answered alike. -/
theorem attend_kernel_alike (q : KernelRequest) :
    Option.Rel Alike (attendKernel cfg m q) (attendKernel cfg m' q) := by
  cases q with
  | initProcessStructuresMemory pcb =>
    have hsegments := init_segments_alike cfg
      (set_clock_alike h pcb.processId
        { processId := (pcb.processId % 2^16).toNat, framesInMemory := [], pointer := 0 })
      pcb.segmentTable 0
    show Option.Rel Alike ((initProcessStructures cfg m pcb).bind _)
      ((initProcessStructures cfg m' pcb).bind _)
    refine rel_bind (R := fun p p' => p.1 = p'.1 ∧ SameControl p.2 p'.2) ?_ ?_
    · refine rel_bind hsegments ?_
      rintro ⟨rows, a⟩ ⟨rows', a'⟩ ⟨he, ha⟩
      cases he
      exact Option.Rel.some ⟨rfl, ha⟩
    · rintro ⟨answer, a⟩ ⟨answer', a'⟩ ⟨he, ha⟩
      cases he
      exact Option.Rel.some ⟨ha, rfl⟩
  | requestPageFault pcb sn pn => exact request_page_fault_alike h pcb sn pn
  | endStructures pcb =>
    show Option.Rel Alike (((deleteSegments m pcb.segmentTable _).bind _).bind _)
      (((deleteSegments m' pcb.segmentTable _).bind _).bind _)
    rw [delete_segments_alike h]
    obtain ⟨ram, swap, rfl⟩ := h
    cases deleteSegments m pcb.segmentTable (m.bitmapMemory, m.bitmapSwap) with
    | none => exact Option.Rel.none
    | some bitmaps => exact Option.Rel.some ⟨⟨ram, swap, rfl⟩, rfl⟩

theorem frame_request_alike (pcb : Pcb) (pn sn : ℤ) :
    Option.Rel Alike (attendCpu cfg m (.frameRequest pcb pn sn))
      (attendCpu cfg m' (.frameRequest pcb pn sn)) := by
  have hframe : getFrameNumberRAM m' pcb pn sn = getFrameNumberRAM m pcb pn sn := by
    obtain ⟨ram, swap, rfl⟩ := h
    rfl
  show Option.Rel Alike ((getFrameNumberRAM m pcb pn sn).bind _)
    ((getFrameNumberRAM m' pcb pn sn).bind _)
  rw [hframe]
  apply rel_bind_same (getFrameNumberRAM m pcb pn sn)
  intro frame
  split
  · exact Option.Rel.some ⟨h, rfl⟩
  · exact Option.Rel.some ⟨h, rfl⟩

theorem mov_out_alike (a : ℤ) (value value' : UInt32) (index pid : ℤ) :
    Option.Rel Alike (attendCpu cfg m (.movOut a value index pid))
      (attendCpu cfg m' (.movOut a value' index pid)) := by
  refine rel_bind (R := SameControl) ?_ ?_
  · obtain ⟨ram, swap, rfl⟩ := h
    unfold saveValueInMemory
    apply rel_bind_same (getPageTableByIndex m index)
    intro t
    apply rel_bind_same m.allPageTables[t]?
    intro table
    apply rel_bind_same (searchRow (a.tdiv cfg.tamPagina) table.pagesList 0)
    intro i
    split
    · apply rel_bind_same
        (modifyRow m ⟨t, i⟩ fun r => { r with modified := true }).allPageTables[t]?
      intro table'
      exact Option.Rel.some ⟨_, _, rfl⟩
    · exact Option.Rel.none
  · intro b b' hb
    exact Option.Rel.some ⟨hb, rfl⟩

theorem mark_use_alike (f : ℤ) (rows : List ClockRow) :
    SameControl (markUse f rows m) (markUse f rows m') := by
  induction rows generalizing m m' with
  | nil => exact h
  | cons k rows ih =>
    unfold markUse
    by_cases hf : f = k.frameNumberInMemory
    · rw [if_pos hf, if_pos hf]
      exact ih (modify_alike h k.page fun r => { r with use := true })
    · rw [if_neg hf, if_neg hf]
      exact ih h

/-- Only the value of a load may differ. -/
theorem mov_in_alike (a : ℤ) (pcb : Pcb) (sn pn : ℤ) :
    Option.Rel (fun p p' => SameControl p.1 p'.1 ∧
        ∃ value value', p.2 = .movInOk value ∧ p'.2 = .movInOk value')
      (attendCpu cfg m (.movIn a pcb sn pn)) (attendCpu cfg m' (.movIn a pcb sn pn)) := by
  refine rel_bind (R := SameControl) ?_ ?_
  · obtain ⟨ram, swap, rfl⟩ := h
    unfold updatePageUse
    apply rel_bind_same (listGet pcb.segmentTable sn)
    intro segment
    apply rel_bind_same (getPageTableByIndex m segment.indexPage)
    intro t
    apply rel_bind_same m.allPageTables[t]?
    intro table
    apply rel_bind_same (listGet table.pagesList pn)
    intro page
    apply rel_bind_same (getStructClock m pcb.processId)
    intro clock
    exact Option.Rel.some (mark_use_alike ⟨ram, swap, rfl⟩ page.frameNumber clock.framesInMemory)
  · intro b b' hb
    unfold readValueInPrincipalMemory
    split
    · exact Option.Rel.some ⟨hb, _, _, rfl, rfl⟩
    · exact Option.Rel.none

end Paging

/-- The sessions differ in bytes only. -/
structure SameSession (s s' : Session) : Prop where
  memory : SameControl s.site.memory s'.site.memory
  live : s'.site.live = s.site.live
  answered : s'.answered = s.answered

/-- The operations differ in the value of a store only. -/
inductive SameButValue : Operation → Operation → Prop where
  | same (op : Operation) : SameButValue op op
  | store (pcb : Pcb) (segment page : ℤ) (offset : ℕ) (value value' : UInt32) :
    SameButValue (.movOut pcb segment page offset value) (.movOut pcb segment page offset value')

theorem store_alike {cfg : MemoryConfig} {s s' : Session} (h : SameSession s s') (pcb : Pcb)
    (segment page : ℤ) (offset : ℕ) (value value' : UInt32) :
    Option.Rel (fun p p' => SameSession p.1 p'.1 ∧ p.2 = p'.2)
      (serve cfg s (.movOut pcb segment page offset value))
      (serve cfg s' (.movOut pcb segment page offset value')) := by
  show Option.Rel _ (s.answered.bind _) (s'.answered.bind _)
  rw [h.answered]
  apply rel_bind_same s.answered
  intro a
  apply rel_bind_same (listGet pcb.segmentTable segment)
  intro row
  apply rel_bind (mov_out_alike h.memory _ value value' row.indexPage pcb.processId)
  rintro ⟨b, answer⟩ ⟨b', answer'⟩ ⟨hb, _⟩
  exact Option.Rel.some ⟨⟨hb, h.live, rfl⟩, rfl⟩

/-- Two sessions that differ in bytes serve an operation alike; only a load's answer differs. -/
theorem serve_alike {cfg : MemoryConfig} {s s' : Session} (h : SameSession s s')
    {op op' : Operation} (hop : SameButValue op op') :
    Option.Rel (fun p p' => SameSession p.1 p'.1) (serve cfg s op) (serve cfg s' op') := by
  cases hop with
  | store pcb segment page offset value value' =>
    exact rel_mono (store_alike h pcb segment page offset value value') fun p p' hp => hp.1
  | same op =>
    cases op with
    | kernel q =>
      show Option.Rel _ ((attendKernel cfg s.site.memory q).bind _)
        ((attendKernel cfg s'.site.memory q).bind _)
      apply rel_bind (attend_kernel_alike h.memory q)
      rintro ⟨b, answer⟩ ⟨b', answer'⟩ ⟨hb, he⟩
      cases he
      refine Option.Rel.some ⟨hb, ?_, ?_⟩
      · show kernelLive s'.site.live q answer = kernelLive s.site.live q answer
        rw [h.live]
      · show stillAnswered s'.answered q = stillAnswered s.answered q
        rw [h.answered]
    | frameRequest pcb segment page =>
      show Option.Rel _ ((attendCpu cfg s.site.memory _).bind _)
        ((attendCpu cfg s'.site.memory _).bind _)
      apply rel_bind (frame_request_alike h.memory pcb page segment)
      rintro ⟨b, answer⟩ ⟨b', answer'⟩ ⟨hb, he⟩
      cases he
      exact Option.Rel.some ⟨hb, h.live, rfl⟩
    | movOut pcb segment page offset value =>
      exact rel_mono (store_alike h pcb segment page offset value value) fun p p' hp => hp.1
    | movIn pcb segment page offset =>
      show Option.Rel _ (s.answered.bind _) (s'.answered.bind _)
      rw [h.answered]
      apply rel_bind_same s.answered
      intro a
      apply rel_bind (mov_in_alike h.memory _ pcb segment page)
      rintro ⟨b, answer⟩ ⟨b', answer'⟩ ⟨hb, value, value', he, he'⟩
      cases he
      cases he'
      exact Option.Rel.some ⟨hb, h.live, rfl⟩

theorem session_step_alike {cfg : MemoryConfig} (s s' : Session) (op op' : Operation)
    (h : SameSession s s') (hop : SameButValue op op') :
    Option.Rel SameSession (sessionStep cfg s op) (sessionStep cfg s' op') :=
  rel_map (serve_alike h hop) fun _ _ hp => hp

theorem allowed_alike {cfg : MemoryConfig} (s s' : Session) (op op' : Operation)
    (h : SameSession s s') (hop : SameButValue op op') (ha : AllowedOperation cfg s op) :
    AllowedOperation cfg s' op' := by
  obtain ⟨⟨m, live⟩, answered⟩ := s
  obtain ⟨⟨m', live'⟩, answered'⟩ := s'
  obtain ⟨⟨ram, swap, hm⟩, hl, han⟩ := h
  cases hm
  cases hl
  cases han
  cases hop with
  | store pcb segment page offset value value' => exact ha
  | same op =>
    cases op with
    | kernel q =>
      cases q with
      | initProcessStructuresMemory pcb => exact ha
      | requestPageFault pcb sn pn =>
        obtain ⟨⟨v, x, hv⟩, hfree⟩ := ha
        exact ⟨⟨v, x, hv.1, hv.2, hv.3, hv.4⟩, hfree⟩
      | endStructures pcb => exact ha
    | frameRequest pcb segment page => exact ha
    | movOut pcb segment page offset value => exact ha
    | movIn pcb segment page offset => exact ha

end Geck.MemoryLockstep
