import Geck.Admission
import Geck.SoleCopy

/-!
# One page fault for each access

A `MOV` that faults is executed again when its page has been loaded. Until then
the PCB keeps its program counter on every way it takes, the request names the
page the instruction asked for, and the page stays where it was loaded: only
faults of the same process take a frame from it, and it has none while it waits.
-/

set_option autoImplicit false

namespace Geck.AccessFaults
open Geck.LabelledRuns Geck.BlockStore Geck.SharedPcb Geck.MemoryState Geck.MemoryPaging
open Geck.MemoryHandlers Geck.MemoryReplacement Geck.MemoryAccounting Geck.MemoryAllocation
open Geck.MemoryFaults Geck.MemorySystem Geck.CpuTranslation Geck.CpuExecution Geck.CpuEffects
open Geck.CpuFlags Geck.KernelState Geck.KernelThreads Geck.KernelLedger Geck.KernelInvariant
open Geck.KernelSoundness Geck.MemoryDegree Geck.PcbTrail Geck.WholeMachine Geck.SoleCopy

/-- What the kernel's next request needs: swap for a new process, a frame for a page. -/
def Resourced (mcfg : MemoryConfig) (w : Machine) : Action → Prop
  | .attendKernel =>
    match w.system.toMemory with
    | .initProcessStructuresMemory pcb::_ =>
      pagesNeeded mcfg pcb.segmentTable ≤ w.memory.bitmapSwap.count false
    | .requestPageFault pcb _ _::_ => FrameAvailable mcfg w.memory pcb.processId
    | _ => True
  | _ => True

instance (mcfg : MemoryConfig) (w : Machine) : ∀ a, Decidable (Resourced mcfg w a)
  | .thread _ => inferInstanceAs (Decidable True)
  | .attendCpu _ => inferInstanceAs (Decidable True)
  | .processDispatch _ _ => inferInstanceAs (Decidable True)
  | .attendKernel =>
    match h : w.system.toMemory with
    | .initProcessStructuresMemory pcb::_ =>
      decidable_of_iff (pagesNeeded mcfg pcb.segmentTable ≤ w.memory.bitmapSwap.count false)
        (by simp [Resourced, h])
    | .requestPageFault pcb _ _::_ =>
      decidable_of_iff (FrameAvailable mcfg w.memory pcb.processId) (by simp [Resourced, h])
    | [] => isTrue (by simp [Resourced, h])
    | .endStructures _::_ => isTrue (by simp [Resourced, h])

/-- A fault that memory has answered; the process has not executed since. -/
structure Answered (cfg : CpuConfig) (m : Memory) (pcb : Pcb) (f : Fault) : Prop where
  once : f.count = 1
  programCounter : f.programCounter = pcb.programCounter
  page : nextPage cfg pcb = some (f.segment, f.page)
  frame : ∃ n, f.frame = some n ∧ n ≠ -1 ∧ getFrameNumberRAM m pcb f.page f.segment = some n

/-- A fault on its way to memory as a fault on that page. -/
structure Unanswered (cfg : CpuConfig) (m : Memory) (pcb : Pcb) (segment page : ℤ) (f : Fault) :
    Prop where
  once : f.count = 1
  programCounter : f.programCounter = pcb.programCounter
  asked : f.segment = segment ∧ f.page = page
  next : nextPage cfg pcb = some (segment, page)
  frame : getFrameNumberRAM m pcb page segment = some (-1)

def Settled (cfg : CpuConfig) (m : Memory) (live : Live) (faults : ℤ → Option Fault) (pcb : Pcb) :
    Prop :=
  live pcb.processId = some pcb.segmentTable ∧
    ∀ f, faults pcb.processId = some f → Answered cfg m pcb f

def Asking (cfg : CpuConfig) (m : Memory) (live : Live) (faults : ℤ → Option Fault) (pcb : Pcb)
    (segment page : ℤ) : Prop :=
  live pcb.processId = some pcb.segmentTable ∧
    ∃ f, faults pcb.processId = some f ∧ Unanswered cfg m pcb segment page f

structure Coherent (cfg : KernelConfig) (mcfg : MemoryConfig) (w : Machine) : Prop where
  sound : Sound cfg w.system
  accounts : Accounts mcfg w.memory w.live
  tenants : ∃ held : Finset ℤ, (∀ pid, pid ∈ held ↔ w.live pid ≠ none) ∧ Tenants ⟨w.system, held⟩
  trail : Trail (Settled cfg.cpu w.memory w.live w.faults)
    (Asking cfg.cpu w.memory w.live w.faults) w.system
  once : ∀ pid f, w.faults pid = some f → f.count ≤ 1

section Copies
variable {cfg : CpuConfig} {m : Memory} {live : Live} {faults : ℤ → Option Fault}

theorem next_page_core {p q : Pcb} (h : core p = core q) : nextPage cfg p = nextPage cfg q := by
  simp only [core, Prod.mk.injEq] at h
  obtain ⟨-, hcounter, hinstructions, hsegments⟩ := h
  simp only [nextPage, fetchNextInstructionToExecute, translateLogicalAddress, hcounter,
    hinstructions, hsegments]

theorem frame_number_core {p q : Pcb} (h : core p = core q) (page segment : ℤ) :
    getFrameNumberRAM m p page segment = getFrameNumberRAM m q page segment := by
  simp only [core, Prod.mk.injEq] at h
  simp only [getFrameNumberRAM, h.2.2.2]

theorem settled_persistent : Persistent (Settled cfg m live faults) (Asking cfg m live faults) := by
  constructor
  · rintro p q hcore ⟨hlive, hfaults⟩
    have hsame := hcore
    simp only [core, Prod.mk.injEq] at hsame
    obtain ⟨hpid, hcounter, -, hsegments⟩ := hsame
    refine ⟨by rw [← hpid, hlive, hsegments], fun f hf => ?_⟩
    obtain ⟨honce, hprogram, hpage, n, hn, hne, hframe⟩ := hfaults f (by rw [hpid, hf])
    refine ⟨honce, hprogram.trans hcounter, (next_page_core hcore).symm.trans hpage, n, hn, hne, ?_⟩
    rw [← frame_number_core hcore, hframe]
  · rintro p q segment page hcore ⟨hlive, f, hf, hu⟩
    have hsame := hcore
    simp only [core, Prod.mk.injEq] at hsame
    obtain ⟨hpid, hcounter, -, hsegments⟩ := hsame
    refine ⟨by rw [← hpid, hlive, hsegments], f, by rw [← hpid, hf], hu.once,
      hu.programCounter.trans hcounter, hu.asked, (next_page_core hcore).symm.trans hu.next, ?_⟩
    rw [← frame_number_core hcore, hu.frame]

end Copies

section Frames
variable {mcfg : MemoryConfig} {m m' : Memory} {live live' : Live}

/-- What `get_frame_number_RAM` reads of a row. -/
def shownFrame (x : PageTableRow) : ℤ := if x.presence then x.frameNumber else -1

theorem frame_number (hold : Holdings mcfg m live) {pcb : Pcb}
    (hlive : live pcb.processId = some pcb.segmentTable) (page segment : ℤ) :
    getFrameNumberRAM m pcb page segment =
      ((requestedPage pcb.segmentTable segment page).bind (row m)).map shownFrame := by
  cases hs : listGet pcb.segmentTable segment with
  | none => simp [getFrameNumberRAM, requestedPage, hs]
  | some entry =>
    obtain ⟨h0, hlt⟩ := hold.inRange _ _ hlive entry.indexPage (List.mem_map_of_mem (list_get_mem hs))
    obtain ⟨t, ht⟩ := Int.eq_ofNat_of_zero_le h0
    have hlt' : t < m.allPageTables.length := by omega
    simp only [getFrameNumberRAM, requestedPage, hs, ht, table_lookup hold.ids t hlt',
      List.getElem?_eq_getElem hlt', Option.bind_eq_bind, Option.bind_some]
    by_cases hp : 0 ≤ page
    · simp only [listGet, hp, Int.natCast_nonneg, and_self, if_true, Option.bind_some, row,
        Int.toNat_natCast, List.getElem?_eq_getElem hlt', Option.bind_eq_bind]
      cases m.allPageTables[t].pagesList[page.toNat]? with
      | none => rfl
      | some x =>
        simp only [Option.bind_some, Option.map_some, shownFrame]
        split <;> rfl
    · simp [listGet, hp]

theorem frames_of_rows (hold : Holdings mcfg m live) (hold' : Holdings mcfg m' live') {pcb : Pcb}
    (hlive : live pcb.processId = some pcb.segmentTable)
    (hsame : live' pcb.processId = live pcb.processId)
    (hrows : ∀ r, Owns live pcb.processId r.table → row m' r = row m r) (page segment : ℤ) :
    getFrameNumberRAM m' pcb page segment = getFrameNumberRAM m pcb page segment := by
  rw [frame_number hold hlive, frame_number hold' (hsame.trans hlive)]
  cases hv : requestedPage pcb.segmentTable segment page with
  | none => rfl
  | some v =>
    rw [Option.bind_some, Option.bind_some, hrows v (requested_owned hlive hv)]

theorem frames_of_same (hold : Holdings mcfg m live) (h : SameHoldings m m') {pcb : Pcb}
    (hlive : live pcb.processId = some pcb.segmentTable) (page segment : ℤ) :
    getFrameNumberRAM m' pcb page segment = getFrameNumberRAM m pcb page segment := by
  rw [frame_number hold hlive, frame_number (holdings_same h hold) hlive]
  cases hv : requestedPage pcb.segmentTable segment page with
  | none => rfl
  | some v =>
    have hshown : shownFrame = fun x : PageTableRow =>
        if (holding x).2.2 then (holding x).1 else -1 := rfl
    have hrow := congrArg (Option.map fun p : ℤ × ℤ × Bool => if p.2.2 then p.1 else -1) (h.rows v)
    simpa [hshown, Option.map_map, Function.comp_def] using hrow

/-- A page whose frame memory does not know is one that can be asked for. -/
theorem requestable_of_frame (hold : Holdings mcfg m live) {pcb : Pcb} {page segment : ℤ}
    (hlive : live pcb.processId = some pcb.segmentTable)
    (h : getFrameNumberRAM m pcb page segment = some (-1)) :
    ∃ v x, Requestable m live pcb segment page v x := by
  rw [frame_number hold hlive, Option.map_eq_some_iff] at h
  obtain ⟨x, hx, hshown⟩ := h
  obtain ⟨v, hv, hrow⟩ := Option.bind_eq_some_iff.mp hx
  refine ⟨v, x, hlive, hv, hrow, ?_⟩
  by_contra hpres
  have hpres : x.presence = true := by simpa using hpres
  have hrange := (marked_range (hold.frameMarked _ v x ⟨requested_owned hlive hv, hrow⟩ hpres)).1
  simp only [shownFrame, hpres, if_true] at hshown
  omega

end Frames

/-- Nothing changes in what is known of the other processes. -/
structure Unchanged (pid : ℤ) (m m' : Memory) (live live' : Live)
    (faults faults' : ℤ → Option Fault) : Prop where
  sameLive : ∀ q, q ≠ pid → live' q = live q
  sameFaults : ∀ q, q ≠ pid → faults' q = faults q
  sameFrames : ∀ pcb : Pcb, pcb.processId ≠ pid → live pcb.processId = some pcb.segmentTable →
    ∀ page segment, getFrameNumberRAM m' pcb page segment = getFrameNumberRAM m pcb page segment

section Others
variable {cfg : CpuConfig} {m m' : Memory} {live live' : Live} {faults faults' : ℤ → Option Fault}
  {s : System} {pid : ℤ}

theorem answered_same {pcb : Pcb} {f : Fault} (h : ∀ page segment,
      getFrameNumberRAM m' pcb page segment = getFrameNumberRAM m pcb page segment)
    (ha : Answered cfg m pcb f) : Answered cfg m' pcb f := by
  obtain ⟨n, hn, hne, hframe⟩ := ha.frame
  exact ⟨ha.once, ha.programCounter, ha.page, n, hn, hne, (h _ _).trans hframe⟩

theorem unanswered_same {pcb : Pcb} {segment page : ℤ} {f : Fault} (h : ∀ page segment,
      getFrameNumberRAM m' pcb page segment = getFrameNumberRAM m pcb page segment)
    (hu : Unanswered cfg m pcb segment page f) : Unanswered cfg m' pcb segment page f :=
  ⟨hu.once, hu.programCounter, hu.asked, hu.next, (h _ _).trans hu.frame⟩

theorem trail_unchanged (hu : Unchanged pid m m' live live' faults faults')
    (hs : Trail (Settled cfg m live faults) (Asking cfg m live faults) s) (haway : Away pid s) :
    Trail (Settled cfg m' live' faults') (Asking cfg m' live' faults') s := by
  refine trail_both ?_ ?_ hs haway
  · rintro pcb ⟨hlive, hanswered⟩ hne
    refine ⟨(hu.sameLive _ hne).trans hlive, fun f hf => ?_⟩
    rw [hu.sameFaults _ hne] at hf
    exact answered_same (hu.sameFrames pcb hne hlive) (hanswered f hf)
  · rintro pcb segment page ⟨hlive, f, hf, hunanswered⟩ hne
    exact ⟨(hu.sameLive _ hne).trans hlive, f, (hu.sameFaults _ hne).trans hf,
      unanswered_same (hu.sameFrames pcb hne hlive) hunanswered⟩

theorem trail_same_frames (hframes : ∀ pcb : Pcb, live pcb.processId = some pcb.segmentTable →
      ∀ page segment, getFrameNumberRAM m' pcb page segment = getFrameNumberRAM m pcb page segment)
    (hs : Trail (Settled cfg m live faults) (Asking cfg m live faults) s) :
    Trail (Settled cfg m' live faults) (Asking cfg m' live faults) s := by
  refine trail_mono ?_ ?_ hs
  · rintro pcb ⟨hlive, hanswered⟩
    exact ⟨hlive, fun f hf => answered_same (hframes pcb hlive) (hanswered f hf)⟩
  · rintro pcb segment page ⟨hlive, f, hf, hunanswered⟩
    exact ⟨hlive, f, hf, unanswered_same (hframes pcb hlive) hunanswered⟩

end Others

section Served
variable {cfg : KernelConfig} {mcfg : MemoryConfig} {w : Machine} {rest : List KernelRequest}
  {memory : Memory} {answer : Option KernelResponse}

theorem served_tenants {request : KernelRequest} {segments : List Segment} {t : System}
    (hs : Sound cfg w.system) {held : Finset ℤ} (ht : Tenants ⟨w.system, held⟩)
    (hq : w.system.toMemory = request::rest)
    (hstep : step cfg w.system (.memoria segments) = some t) :
    Tenants ⟨t, holds held request⟩ := by
  have hwatch : watch cfg ⟨w.system, held⟩ (.memoria segments) =
      some ⟨t, (handledRequest w.system (.memoria segments)).foldl holds held⟩ := by
    simp [watch, hstep]
  have hnext := step_tenants hs ht hwatch
  simpa [handledRequest, hq] using hnext

theorem update_held {held : Finset ℤ} {live : Live}
    (hheld : ∀ pid, pid ∈ held ↔ live pid ≠ none) (pid : ℤ) (segments : List Segment) :
    ∀ q, q ∈ insert pid held ↔ Function.update live pid (some segments) q ≠ none := by
  intro q
  by_cases hq : q = pid
  · simp [hq]
  · simp [hq, hheld]

theorem erase_held {held : Finset ℤ} {live : Live}
    (hheld : ∀ pid, pid ∈ held ↔ live pid ≠ none) (pid : ℤ) :
    ∀ q, q ∈ held.erase pid ↔ Function.update live pid none q ≠ none := by
  intro q
  by_cases hq : q = pid
  · simp [hq]
  · simp [hq, hheld]

theorem once_update {faults : ℤ → Option Fault} (honce : ∀ pid f, faults pid = some f → f.count ≤ 1)
    (pid : ℤ) {fault : Option Fault} (hfault : ∀ f, fault = some f → f.count ≤ 1) :
    ∀ q f, Function.update faults pid fault q = some f → f.count ≤ 1 := by
  intro q f hf
  by_cases hq : q = pid
  · subst hq
    exact hfault f (by simpa using hf)
  · exact honce q f (by simpa [hq] using hf)

theorem init_coherent (valid : ValidConfig mcfg) (hw : Coherent cfg mcfg w) {pcb : Pcb}
    (hq : w.system.toMemory = .initProcessStructuresMemory pcb::rest)
    (hfree : pagesNeeded mcfg pcb.segmentTable ≤ w.memory.bitmapSwap.count false)
    (h : attendKernel mcfg w.memory (.initProcessStructuresMemory pcb) = some (memory, answer)) :
    Coherent cfg mcfg
      (served mcfg w (.initProcessStructuresMemory pcb) rest memory answer) := by
  obtain ⟨held, hheld, ht⟩ := hw.tenants
  obtain ⟨segments, hstep⟩ := served_step cfg hq h (by simp)
  have hnew : w.live pcb.processId = none := by
    by_contra hlive
    exact ht.fresh pcb (by simp [hq]) ((hheld _).mpr hlive)
  obtain ⟨built, m', hinit, hext, haccounts⟩ := init_served valid hw.accounts pcb hnew hfree
  have heq : m' = memory ∧ some (KernelResponse.initProcessStructuresMemoryResponse
      { pcb with segmentTable := built }) = answer := by
    simpa [attendKernel, hinit] using h
  obtain ⟨rfl, rfl⟩ := heq
  have haway := away_init hw.sound ht.ended hq
  refine ⟨step_sound hw.sound hstep, haccounts, ?_, ?_, ?_⟩
  · exact ⟨_, update_held hheld pcb.processId built, served_tenants hw.sound ht hq hstep⟩
  · apply trail_answered
    · refine trail_unchanged ⟨?_, ?_, ?_⟩ (trail_popped hw.trail hq) haway
      · exact fun q hne => Function.update_of_ne hne _ _
      · exact fun q hne => Function.update_of_ne hne _ _
      · intro p hne hlive page segment
        refine frames_of_rows hw.accounts.holdings haccounts.holdings hlive
          (Function.update_of_ne hne _ _) (fun r ho => ?_) page segment
        exact hext.old r (owns_lt hw.accounts.holdings ho)
    · intro r hr
      obtain rfl := List.mem_singleton.mp hr
      refine ⟨Function.update_self _ _ _, fun f hf => ?_⟩
      have hnone : Function.update w.faults pcb.processId none pcb.processId = some f := hf
      simp at hnone
  · exact once_update hw.once pcb.processId (by simp)

theorem end_coherent (hw : Coherent cfg mcfg w) {pcb : Pcb}
    (hq : w.system.toMemory = .endStructures pcb::rest)
    (h : attendKernel mcfg w.memory (.endStructures pcb) = some (memory, answer)) :
    Coherent cfg mcfg (served mcfg w (.endStructures pcb) rest memory answer) := by
  obtain ⟨held, hheld, ht⟩ := hw.tenants
  obtain ⟨segments, hstep⟩ := served_step cfg hq h (by simp)
  have hrequest : Settled cfg.cpu w.memory w.live w.faults pcb :=
    hw.trail.toMemory (.endStructures pcb) (by simp [hq])
  obtain ⟨bits, slots, hdelete, haccounts⟩ := end_served hw.accounts pcb hrequest.1
  have heq : { w.memory with bitmapMemory := bits, bitmapSwap := slots } = memory ∧
      none = answer := by
    simpa [attendKernel, hdelete] using h
  obtain ⟨rfl, rfl⟩ := heq
  refine ⟨step_sound hw.sound hstep, haccounts, ?_, ?_, hw.once⟩
  · exact ⟨_, erase_held hheld pcb.processId, served_tenants hw.sound ht hq hstep⟩
  · apply trail_answered
    · have hunchanged : Unchanged pcb.processId w.memory
          { w.memory with bitmapMemory := bits, bitmapSwap := slots } w.live
          (Function.update w.live pcb.processId none) w.faults w.faults :=
        ⟨fun q hne => Function.update_of_ne hne _ _, fun _ _ => rfl, fun _ _ _ _ _ => rfl⟩
      exact trail_unchanged hunchanged (trail_popped hw.trail hq) (away_end hw.sound ht.ended hq)
    · intro r hr
      cases hr

theorem fault_coherent (valid : ValidConfig mcfg) (hw : Coherent cfg mcfg w) {pcb : Pcb}
    {segment page : ℤ} (hq : w.system.toMemory = .requestPageFault pcb segment page::rest)
    (hfree : FrameAvailable mcfg w.memory pcb.processId)
    (h : attendKernel mcfg w.memory (.requestPageFault pcb segment page) = some (memory, answer)) :
    Coherent cfg mcfg
      (served mcfg w (.requestPageFault pcb segment page) rest memory answer) := by
  obtain ⟨held, hheld, ht⟩ := hw.tenants
  have hrequest : Asking cfg.cpu w.memory w.live w.faults pcb segment page :=
    hw.trail.toMemory (.requestPageFault pcb segment page) (by simp [hq])
  obtain ⟨hlive, f, hf, hu⟩ := hrequest
  obtain ⟨v, x, hrequestable⟩ := requestable_of_frame hw.accounts.holdings hlive hu.frame
  obtain ⟨m', n, m₂, c, c₂, hserve, hchosen, hserved⟩ :=
    page_fault_served valid hw.accounts hrequestable hfree
  have heq : m' = memory ∧ some (KernelResponse.responsePageFault pcb) = answer := by
    simpa [attendKernel, hserve] using h
  obtain ⟨rfl, rfl⟩ := heq
  obtain ⟨segments, hstep⟩ := served_step cfg hq h (by
    rintro _ _ _ ⟨⟩
    rfl)
  have haccounts := served_accounts hw.accounts hserved
  have hfaults : faultsServed mcfg w.memory w.faults (.requestPageFault pcb segment page) =
      Function.update w.faults pcb.processId (some { f with frame := some n }) := by
    simp [faultsServed, hf, hchosen]
  have hloaded : getFrameNumberRAM m' pcb page segment = some n := by
    rw [frame_number haccounts.holdings hlive, hrequestable.page, Option.bind_some,
      hserved.loaded.after]
    rfl
  have hrange := (room_frame hw.accounts.holdings hserved.room).1
  refine ⟨step_sound hw.sound hstep, haccounts, ?_, ?_, ?_⟩
  · exact ⟨_, hheld, served_tenants hw.sound ht hq hstep⟩
  · apply trail_answered
    · refine trail_unchanged ⟨fun _ _ => rfl, fun q hne => ?_, ?_⟩ (trail_popped hw.trail hq)
        (away_fault hw.sound ht.ended hq)
      · show faultsServed mcfg w.memory w.faults (.requestPageFault pcb segment page) q = _
        rw [hfaults, Function.update_of_ne hne]
      · intro p hne hp
        exact frames_of_rows hw.accounts.holdings haccounts.holdings hp rfl
          fun r ho => served_other_row hw.accounts hserved hne ho
    · intro r hr
      obtain rfl := List.mem_singleton.mp hr
      refine ⟨hlive, fun g hg => ?_⟩
      have hg' : faultsServed mcfg w.memory w.faults (.requestPageFault pcb segment page)
          pcb.processId = some g := hg
      rw [hfaults, Function.update_self] at hg'
      obtain rfl := Option.some.inj hg'
      obtain ⟨hsegment, hpage⟩ := hu.asked
      refine ⟨hu.once, hu.programCounter, ?_, n, rfl, ?_, ?_⟩
      · show nextPage cfg.cpu pcb = some (f.segment, f.page)
        rw [hsegment, hpage, hu.next]
      · have := hrange.1
        omega
      · show getFrameNumberRAM m' pcb f.page f.segment = some n
        rw [hsegment, hpage, hloaded]
  · show ∀ pid g, faultsServed mcfg w.memory w.faults (.requestPageFault pcb segment page) pid =
      some g → g.count ≤ 1
    rw [hfaults]
    apply once_update hw.once
    rintro g hg
    obtain rfl := Option.some.inj hg
    exact hu.once.le

end Served

section Turns
variable {cfg : CpuConfig} {mcfg : MemoryConfig} {m : Memory} {answers : Answers}

theorem with_address_fault {cpu cpu' : Cpu} {pcb : Pcb} {a : ℤ}
    {access : Cpu → LogicalAddressParameters → ℤ → Option (Cpu × Option Access)}
    (haccess : ChangesRegisters access) (hclear : Clear cpu)
    {made : Option Access} (hfault : cpu'.pageFault = true)
    (h : withAddress cfg answers cpu pcb a access = some (cpu', made)) :
    ∃ params outside, translateLogicalAddress cfg a pcb = some (params, outside) ∧
      cpu'.numeroSegmentoGlobalPageFault = params.segmentNumber ∧
      cpu'.numeroPaginaGlobalPageFault = params.pageNum ∧ ∃ n, answers.frame = .pageFault n := by
  cases with_address_some h with
  | outside params translated => simp [hclear.2] at hfault
  | ended params translated before => simp [hclear.1.2.2] at before
  | nowhere params tlb fault translated built =>
    cases fault with
    | true => exact ⟨params, false, translated, rfl, rfl, build_physical_address_answer built⟩
    | false => simp [lookedUp, hclear.2] at hfault
  | reaches params tlb fault address translated built real cpu' made accessed =>
    obtain ⟨r, rfl⟩ := haccess _ _ _ _ _ accessed
    cases fault with
    | true => exact ⟨params, false, translated, rfl, rfl, build_physical_address_answer built⟩
    | false => simp [lookedUp, hclear.2] at hfault

/-- A page fault is on the page of the instruction, and memory answered so. -/
theorem instruction_cycle_fault {cpu cpu' : Cpu} {pcb pcb' : Pcb} {made : Option Access}
    (hclear : Clear cpu) (hfault : cpu'.pageFault = true)
    (h : instructionCycle cfg answers cpu pcb = some (cpu', pcb', made)) :
    nextPage cfg pcb =
      some (cpu'.numeroSegmentoGlobalPageFault, cpu'.numeroPaginaGlobalPageFault) ∧
    ∃ n, answers.frame = .pageFault n := by
  simp only [instructionCycle, Option.bind_eq_bind, Option.bind_eq_some_iff] at h
  obtain ⟨instruction, hfetch, ⟨cpu₁, made₁⟩, hexec, h⟩ := h
  simp only [Option.some.injEq, Prod.mk.injEq] at h
  obtain ⟨rfl, -, -⟩ := h
  simp only [executeInstruction, Option.bind_eq_bind, Option.bind_eq_some_iff] at hexec
  obtain ⟨name, hname, hexec⟩ := hexec
  -- only the two `MOV` raise the flag
  have hmov : ∀ logicalAddress access, movAddress (decode cfg instruction) =
      some (atoi logicalAddress) → ChangesRegisters access →
      withAddress cfg answers cpu pcb (atoi logicalAddress) access = some (cpu₁, made₁) →
      nextPage cfg pcb =
        some (cpu₁.numeroSegmentoGlobalPageFault, cpu₁.numeroPaginaGlobalPageFault) ∧
      ∃ n, answers.frame = .pageFault n := by
    intro logicalAddress access haddress haccess hwith
    obtain ⟨params, outside, htranslate, hsegment, hpage, hanswer⟩ :=
      with_address_fault haccess hclear hfault hwith
    refine ⟨?_, hanswer⟩
    simp [nextPage, hfetch, haddress, htranslate, hsegment, hpage]
  cases hkey : keyfromstring name with
  | movIn =>
    simp only [hkey, Option.bind_eq_some_iff] at hexec
    obtain ⟨register, -, logicalAddress, haddress, hexec⟩ := hexec
    exact hmov _ _ (by simp [movAddress, hname, hkey, haddress])
      (mov_in_access_registers _ _) hexec
  | movOut =>
    simp only [hkey, Option.bind_eq_some_iff] at hexec
    obtain ⟨logicalAddress, haddress, register, -, hexec⟩ := hexec
    exact hmov _ _ (by simp [movAddress, hname, hkey, haddress])
      (mov_out_access_registers _ _) hexec
  | set | add | io =>
    simp only [hkey, Option.bind_eq_some_iff, Option.some.injEq, Prod.mk.injEq] at hexec
    obtain ⟨_, -, _, -, rfl, -⟩ := hexec
    simp [hclear.2] at hfault
  | exit | badkey =>
    simp only [hkey, Option.some.injEq, Prod.mk.injEq] at hexec
    obtain ⟨rfl, -⟩ := hexec
    simp [hclear.2] at hfault

theorem frame_answer_fault {pcb : Pcb} {segment page n : ℤ}
    (hnext : nextPage cfg pcb = some (segment, page))
    (h : frameAnswer cfg mcfg m pcb = .pageFault n) :
    getFrameNumberRAM m pcb page segment = some (-1) := by
  simp only [frameAnswer, hnext, attendCpu, Option.bind_eq_bind] at h
  cases hframe : getFrameNumberRAM m pcb page segment with
  | none => simp [hframe] at h
  | some frame =>
    by_cases hmissing : frame = -1
    · rw [hmissing]
    · simp [hframe, hmissing] at h

end Turns

section Steps
variable {cfg : KernelConfig} {mcfg : MemoryConfig} {w w' : Machine}

/-- The turn of a process that has not faulted, or whose fault was answered. -/
theorem executed_turn (hw : Coherent cfg mcfg w) {dispatch : Dispatch} {pcb next : Pcb} {cpu : Cpu}
    {access : Option Access} {value : CpuResponse} {times : Readings}
    (hthread : w.system.cpuThread = .running dispatch pcb)
    (hkeep : keepsRunning w.system.cpu = true)
    (hcycle : instructionCycle cfg.cpu (executionAnswers cfg mcfg w value times) w.system.cpu pcb =
      some (cpu, next, access)) (hfault : cpu.pageFault = true) :
    w.faults pcb.processId = none ∧ nextPage cfg.cpu pcb =
      some (cpu.numeroSegmentoGlobalPageFault, cpu.numeroPaginaGlobalPageFault) ∧
    getFrameNumberRAM w.memory pcb cpu.numeroPaginaGlobalPageFault
      cpu.numeroSegmentoGlobalPageFault = some (-1) := by
  have hclear : w.system.cpu.pageFault = false := (clear_of_running hkeep).2
  have hcpu := hw.trail.cpu
  rw [hthread] at hcpu
  simp only [OnCpu, Executed, hclear, Bool.false_eq_true, if_false] at hcpu
  obtain ⟨hnext, n, hanswer⟩ := instruction_cycle_fault (clear_of_running hkeep) hfault hcycle
  have hmissing := frame_answer_fault hnext (by
    simpa [executionAnswers, hthread, runningPcb] using hanswer)
  refine ⟨?_, hnext, hmissing⟩
  cases hf : w.faults pcb.processId with
  | none => rfl
  | some f =>
    obtain ⟨-, -, hpage, loaded, -, hne, hframe⟩ := hcpu.2 f hf
    have hsame := hpage.symm.trans hnext
    simp only [Option.some.injEq, Prod.mk.injEq] at hsame
    rw [hsame.1, hsame.2, hmissing] at hframe
    exact absurd (Option.some.inj hframe).symm hne

theorem thread_handles {e : Event} (h : isThread e = true) (s : System) :
    handledRequest s e = [] := by
  cases e <;> simp [isThread, handledRequest] at h ⊢

theorem unserved_tenants {e : Event} {t : System} {held : Finset ℤ} (hs : Sound cfg w.system)
    (ht : Tenants ⟨w.system, held⟩) (hnone : handledRequest w.system e = [])
    (h : step cfg w.system e = some t) : Tenants ⟨t, held⟩ := by
  have hwatch : watch cfg ⟨w.system, held⟩ e = some ⟨t, held⟩ := by simp [watch, h, hnone]
  exact step_tenants hs ht hwatch

theorem turn_coherent (hw : Coherent cfg mcfg w) {value : CpuResponse} {times : Readings}
    {t : System}
    (h : processDispatch cfg w.system (executionAnswers cfg mcfg w value times) = some t) :
    Coherent cfg mcfg
      { w with system := t, faults := faultsExecuted w.faults w.system t } := by
  obtain ⟨held, hheld, ht⟩ := hw.tenants
  have hstep : step cfg w.system (.processDispatch (executionAnswers cfg mcfg w value times)) =
      some t := h
  have hsound := step_sound hw.sound hstep
  have htenants := unserved_tenants hw.sound ht rfl hstep
  by_cases hexecutes : executes w.system = true
  · obtain ⟨dispatch, pcb, cpu, access, hthread, hkeep, hcycle, rfl⟩ := turn_cases hexecutes h
    have hclear : w.system.cpu.pageFault = false := (clear_of_running hkeep).2
    have hcpu := hw.trail.cpu
    rw [hthread] at hcpu
    simp only [OnCpu, Executed, hclear, Bool.false_eq_true, if_false] at hcpu
    have haway := away_turn hw.sound ht.ended hthread
    have hunchanged : ∀ fault, Unchanged pcb.processId w.memory w.memory w.live w.live w.faults
        (Function.update w.faults pcb.processId fault) := fun fault =>
      ⟨fun _ _ => rfl, fun q hne => Function.update_of_ne hne _ _, fun _ _ _ _ _ => rfl⟩
    by_cases hfault : cpu.pageFault = true
    · obtain ⟨hnone, hnext, hmissing⟩ := executed_turn hw hthread hkeep hcycle hfault
      simp only [hfault, if_true] at hsound htenants ⊢
      simp only [faultsExecuted, hthread, hkeep, hfault, if_true, hnone, faultCount, Option.map_none,
        Option.getD_none, Nat.zero_add]
      refine ⟨hsound, hw.accounts, ⟨held, hheld, htenants⟩, ?_, ?_⟩
      · apply trail_turn (trail_unchanged (hunchanged _) (trail_idle hw.trail) haway)
        simp only [Executed, hfault, if_true]
        exact ⟨hcpu.1, _, Function.update_self _ _ _, rfl, rfl, ⟨rfl, rfl⟩, hnext, hmissing⟩
      · apply once_update hw.once
        rintro f hf
        obtain rfl := Option.some.inj hf
        exact le_rfl
    · have hfault : cpu.pageFault = false := by simpa using hfault
      simp only [hfault, Bool.false_eq_true, if_false] at hsound htenants ⊢
      simp only [faultsExecuted, hthread, hkeep, hfault, if_true, Bool.false_eq_true, if_false]
      refine ⟨hsound, hw.accounts, ⟨held, hheld, htenants⟩, ?_, ?_⟩
      · apply trail_turn (trail_unchanged (hunchanged none) (trail_idle hw.trail) haway)
        simp only [Executed, hfault, Bool.false_eq_true, if_false]
        refine ⟨hcpu.1, fun f hf => ?_⟩
        simp [updateProgramCounter] at hf
      · exact once_update hw.once pcb.processId (by simp)
  · have hsame : faultsExecuted w.faults w.system t = w.faults := by
      unfold faultsExecuted
      split
      · next dispatch pcb hthread =>
        rw [if_neg (by simpa [executes, hthread] using hexecutes)]
      · rfl
    rw [hsame]
    refine ⟨hsound, hw.accounts, ⟨held, hheld, htenants⟩, ?_, hw.once⟩
    refine step_trail settled_persistent hw.sound hw.trail ?_ hstep
    simpa [plain] using hexecutes

theorem act_coherent (valid : ValidConfig mcfg) (hw : Coherent cfg mcfg w) {a : Action}
    (hg : Resourced mcfg w a) (h : act cfg mcfg w a = some w') : Coherent cfg mcfg w' := by
  rcases act_cases h with ⟨e, t, rfl, hthread, ht, rfl⟩ |
    ⟨request, rest, memory, answer, rfl, hq, hserved, rfl⟩ |
    ⟨request, memory, answer, rfl, hcpu, rfl⟩ | ⟨value, times, t, rfl, ht, rfl⟩
  · obtain ⟨held, hheld, htenants⟩ := hw.tenants
    exact ⟨step_sound hw.sound ht, hw.accounts,
      ⟨held, hheld, unserved_tenants hw.sound htenants (thread_handles hthread _) ht⟩,
      step_trail settled_persistent hw.sound hw.trail (thread_plain hthread _) ht, hw.once⟩
  · simp only [Resourced, hq] at hg
    cases request with
    | initProcessStructuresMemory pcb => exact init_coherent valid hw hq hg hserved
    | requestPageFault pcb segment page => exact fault_coherent valid hw hq hg hserved
    | endStructures pcb => exact end_coherent hw hq hserved
  · have hsame := cpu_same_holdings hw.accounts.holdings.ids hcpu
    exact ⟨hw.sound, accounts_same hsame hw.accounts, hw.tenants,
      trail_same_frames (fun pcb hlive => frames_of_same hw.accounts.holdings hsame hlive) hw.trail,
      hw.once⟩
  · exact turn_coherent hw ht

theorem start_coherent (valid : ValidConfig mcfg) (time : TimeVal) (ram swap : ℕ → UInt8) :
    Coherent cfg mcfg (start cfg mcfg time ram swap) where
  sound := boot_sound cfg time
  accounts := boot_accounts valid ram swap
  tenants := by
    refine ⟨∅, by simp [start], (boot_guards cfg time).placed, ?_, ?_⟩
    · simp [Ended, ending, closing, start, KernelState.boot]
    · simp [start, KernelState.boot]
  trail := boot_trail time
  once := by simp [start]

end Steps

/-- What one fault for each access is. `requested` is about the request the kernel sends,
`answered` about memory's turn and `retried` about the turn of the CPU that follows. -/
structure OneFault (cfg : CpuConfig) (mcfg : MemoryConfig) (w : Machine) : Prop where
  once : ∀ pid f, w.faults pid = some f → f.count ≤ 1
  reported : ∀ reply ∈ w.system.fromCpu, ∀ pcb segment page,
    reply.package = .pageFault pcb segment page → ∃ f, w.faults pcb.processId = some f ∧
      f.programCounter = pcb.programCounter ∧ f.segment = segment ∧ f.page = page ∧
      nextPage cfg pcb = some (segment, page)
  requested : ∀ pcb segment page, .requestPageFault pcb segment page ∈ w.system.toMemory →
    ∃ f, w.faults pcb.processId = some f ∧ f.programCounter = pcb.programCounter ∧
      f.segment = segment ∧ f.page = page ∧ nextPage cfg pcb = some (segment, page)
  answered : ∀ pcb segment page,
    w.system.toMemory.head? = some (.requestPageFault pcb segment page) →
      FrameAvailable mcfg w.memory pcb.processId →
      ∃ m, attendKernel mcfg w.memory (.requestPageFault pcb segment page) =
        some (m, some (.responsePageFault pcb))
  retried : ∀ dispatch pcb f, w.system.cpuThread = .running dispatch pcb →
    keepsRunning w.system.cpu = true → w.faults pcb.processId = some f →
      f.programCounter = pcb.programCounter ∧ nextPage cfg pcb = some (f.segment, f.page) ∧
      ∃ n, f.frame = some n ∧ attendCpu mcfg w.memory (.frameRequest pcb f.page f.segment) =
        some (w.memory, .frameResponse n)

section Runs
variable {cfg : KernelConfig} {mcfg : MemoryConfig} {w : Machine}

theorem asked_fault {pcb : Pcb} {segment page : ℤ}
    (h : Asking cfg.cpu w.memory w.live w.faults pcb segment page) :
    ∃ f, w.faults pcb.processId = some f ∧ f.programCounter = pcb.programCounter ∧
      f.segment = segment ∧ f.page = page ∧ nextPage cfg.cpu pcb = some (segment, page) := by
  obtain ⟨-, f, hf, hu⟩ := h
  exact ⟨f, hf, hu.programCounter, hu.asked.1, hu.asked.2, hu.next⟩

theorem one_fault (valid : ValidConfig mcfg) (hw : Coherent cfg mcfg w) :
    OneFault cfg.cpu mcfg w where
  once := hw.once
  reported := by
    intro reply hreply pcb segment page hpackage
    have hpacked := hw.trail.fromCpu reply hreply
    rw [hpackage] at hpacked
    exact asked_fault hpacked
  requested := fun pcb segment page hmem => asked_fault (hw.trail.toMemory _ hmem)
  answered := by
    intro pcb segment page hhead hfree
    have hasking : Asking cfg.cpu w.memory w.live w.faults pcb segment page :=
      hw.trail.toMemory _ (List.mem_of_mem_head? hhead)
    obtain ⟨hlive, f, -, hu⟩ := hasking
    obtain ⟨v, x, hrequestable⟩ := requestable_of_frame hw.accounts.holdings hlive hu.frame
    obtain ⟨m, n, m₂, c, c₂, hserve, -, -⟩ :=
      page_fault_served valid hw.accounts hrequestable hfree
    exact ⟨m, by simp [attendKernel, hserve]⟩
  retried := by
    intro dispatch pcb f hthread hkeep hf
    have hcpu := hw.trail.cpu
    rw [hthread] at hcpu
    simp only [OnCpu, Executed, (clear_of_running hkeep).2, Bool.false_eq_true, if_false] at hcpu
    obtain ⟨-, hprogram, hpage, n, hn, hne, hframe⟩ := hcpu.2 f hf
    exact ⟨hprogram, hpage, n, hn, by simp [attendCpu, hframe, hne]⟩

end Runs

/-- An instruction of the only process, whatever the value of a load. -/
def turn : Action := .processDispatch (.movInOk 7) ⟨midnight, midnight⟩

/-- A process faults, after as many steps of the scheduler as its algorithm takes, and memory's
answer is enqueued. -/
def answered (scheduling : ℕ) : List Action :=
  Action.thread (.connect ["MOV_IN AX 0", "EXIT"] ["8"])::
    List.replicate 7 (Action.thread (.receiveConsole 0))++
    Action.attendKernel::List.replicate 3 (Action.thread .manageMemory)++
    List.replicate 5 (Action.thread (.receiveConsole 0))++
    List.replicate scheduling (Action.thread .scheduleNextToRunning)++List.replicate 5 turn++
    List.replicate 4 (Action.thread .manageDispatch)++
    List.replicate 2 (Action.thread (.resolvePageFault 0))++
    Action.attendKernel::List.replicate 3 (Action.thread .manageMemory)

/-- The process is on the CPU again. -/
def faultingAccess : List Action :=
  answered 6++List.replicate 6 (Action.thread .scheduleNextToRunning)++[turn]

def retrying : Machine :=
  reached (act (smallKernel .fifo) smallConfig)
    (start (smallKernel .fifo) smallConfig midnight zeros zeros) faultingAccess

end Geck.AccessFaults
