import Geck.MemoryDegree
import Geck.PcbTrail

/-!
# The process memory works for is nowhere else

A request to memory, or an instruction, changes what is known of one process.
The PCB it is for is the only copy that any thread will read again, so nothing
known of the other copies is touched.
-/

set_option autoImplicit false

namespace Geck.SoleCopy
open Geck.Tallies Geck.SharedPcb Geck.MemoryHandlers Geck.CpuExecution Geck.KernelState
open Geck.KernelThreads Geck.KernelFrames Geck.KernelLedger Geck.KernelLaws Geck.KernelInvariant
open Geck.KernelSoundness Geck.ProcessCensus Geck.MemoryDegree Geck.PcbTrail

def endRequest : KernelRequest → List Pcb
  | .endStructures pcb => [pcb]
  | _ => []

attribute [simp] endRequest.eq_1 endRequest.eq_2

/-- The copies of a process in EXIT whose structures memory is still to free. -/
def ending (s : System) : List Pcb := closing s.threadDispatch++s.toMemory.flatMap endRequest

/-- Each of these copies is of a PCB of its own in EXIT. -/
def Ended (s : System) : Prop :=
  ∀ pid, (ending s).countP (fun pcb => pcb.processId = pid) ≤
    s.listExit.countP fun pcb => pcb.processId = pid

/-- What memory holds: each process was requested once and ends once. -/
structure Tenants (w : Watched) : Prop where
  placed : Placed w
  ended : Ended w.system
  fresh : ∀ pcb ∈ w.system.toMemory.flatMap initRequest, pcb.processId ∉ w.held

section Ending
variable {cfg : KernelConfig} {s t : System}

theorem ended_same (hs : Ended s) (hexit : t.listExit = s.listExit)
    (hclosing : closing t.threadDispatch = closing s.threadDispatch)
    (hmemory : t.toMemory.flatMap endRequest = s.toMemory.flatMap endRequest) : Ended t := by
  intro pid
  rw [ending, hclosing, hmemory, hexit]
  exact hs pid

theorem receive_console_requests {i : ℕ} {c : Console} (h : receiveConsole cfg s i c = some t) :
    t.toMemory.flatMap endRequest = s.toMemory.flatMap endRequest := by
  cases hthread : c.thread with
  | sendInit pcb =>
    simp only [receiveConsole, scheduleNextToReady, hthread, Option.some.injEq] at h
    subst h
    simp [System.setConsole]
  | addReady pcb | returned pcb =>
    simp only [receiveConsole, scheduleNextToReady, hthread, Option.some.injEq] at h
    obtain ⟨_, _, hadd⟩ := add_to_ready_frame cfg s pcb
    rw [hadd] at h
    subst h
    rfl
  | _ =>
    simp only [receiveConsole, scheduleNextToReady, hthread] at h
    repeat' split at h
    all_goals simp only [Option.some.injEq, reduceCtorEq] at h
    all_goals
      subst h
      rfl

theorem resolve_page_fault_requests {i : ℕ} {p : PageFaultThread}
    (h : resolvePageFault s i p = some t) :
    t.toMemory.flatMap endRequest = s.toMemory.flatMap endRequest := by
  cases p with
  | lock pcb segmentNumber pageNumber =>
    simp only [resolvePageFault, Option.ite_none_left_eq_some, Option.some.injEq] at h
    obtain ⟨-, rfl⟩ := h
    rfl
  | send pcb segmentNumber pageNumber =>
    simp only [resolvePageFault, Option.some.injEq] at h
    subst h
    simp [System.setPageFaultThread]
  | finished => simp [resolvePageFault] at h

theorem manage_dispatch_ended (hs : Ended s) (h : manageDispatch cfg s = some t) : Ended t := by
  cases hthread : s.threadDispatch with
  | addExit package =>
    have hclosing : closing t.threadDispatch = [packagePcb package] := by
      simp only [manageDispatch, hthread, Option.some.injEq] at h
      subst h
      cases package <;> rfl
    simp only [manageDispatch, hthread, Option.some.injEq] at h
    subst h
    intro pid
    have hold := hs pid
    simp only [ending, hthread, closing, List.nil_append] at hold
    simp only [ending, hclosing, List.countP_append]
    by_cases hpid : (packagePcb package).processId = pid
    · simp [hpid, change_pcb_state_process]
      omega
    · simpa [hpid, change_pcb_state_process] using hold
  | sendMemory package =>
    have hclosing : closing t.threadDispatch = [] := by
      simp only [manageDispatch, hthread, Option.some.injEq] at h
      subst h
      cases package <;> rfl
    simp only [manageDispatch, hthread, Option.some.injEq] at h
    subst h
    intro pid
    have hold := hs pid
    simp only [ending, hthread, closing, List.countP_append] at hold
    simp only [ending, hclosing, List.flatMap_append, List.flatMap_cons, List.flatMap_nil,
      endRequest, List.append_nil, List.nil_append, List.countP_append]
    by_cases hpid : (packagePcb package).processId = pid
    · simp [hpid, change_pcb_state_process] at hold ⊢
      omega
    · simpa [hpid, change_pcb_state_process] using hold
  | sendEnd package =>
    choose consoles hframe using send_to_console_frame s
    cases package
    all_goals
      simp only [manageDispatch, hthread, hframe, Option.some.injEq] at h
      subst h
      exact ended_same hs rfl (by simp [closing, hthread]) rfl
  | sendConsole package =>
    obtain ⟨_, hframe⟩ := send_to_console_frame s (packagePcb package).clientSocket
      (ioMessage package)
    simp only [manageDispatch, hthread, hframe, Option.some.injEq] at h
    subst h
    exact ended_same hs rfl (by simp [closing, hthread]) rfl
  | postFree package | unlockOut package | removeRunning package =>
    simp only [manageDispatch, hthread, Option.some.injEq] at h
    subst h
    refine ended_same hs rfl ?_ rfl
    cases package <;> simp [closing, hthread, afterFree, afterFlag, afterRunning]
  | _ =>
    simp only [manageDispatch, hthread] at h
    repeat' split at h
    all_goals simp only [Option.some.injEq, reduceCtorEq] at h
    all_goals
      subst h
      exact ended_same hs rfl (by simp [closing, hthread]) rfl

theorem step_ended {e : Event} (hs : Ended s) (h : step cfg s e = some t) : Ended t := by
  cases e with
  | connect instructions segments =>
    cases h
    exact ended_same hs rfl rfl rfl
  | console i value =>
    obtain ⟨c, -, h⟩ := Option.bind_eq_some_iff.mp h
    obtain ⟨_, _, _, _, _, rfl⟩ := consola_frame h
    exact ended_same hs rfl rfl rfl
  | receiveConsole i =>
    obtain ⟨c, -, h⟩ := Option.bind_eq_some_iff.mp h
    have hmemory := receive_console_requests h
    obtain ⟨_, _, _, _, _, _, _, _, _, _, _, _, rfl⟩ := receive_console_frame h
    exact ended_same hs rfl rfl hmemory
  | scheduleNextToRunning =>
    obtain ⟨_, _, _, _, _, _, _, _, _, _, _, rfl⟩ := schedule_next_to_running_frame h
    exact ended_same hs rfl rfl rfl
  | manageDispatch => exact manage_dispatch_ended hs h
  | manageInterrupt =>
    obtain ⟨_, _, _, _, rfl⟩ := manage_interrupt_frame h
    exact ended_same hs rfl rfl rfl
  | countQuantum expired =>
    obtain ⟨_, _, _, _, _, _, rfl⟩ := count_quantum_frame h
    exact ended_same hs rfl rfl rfl
  | manageMemory =>
    obtain ⟨_, _, _, _, _, _, _, _, rfl⟩ := manage_memory_frame h
    exact ended_same hs rfl rfl rfl
  | resolvePageFault i =>
    obtain ⟨p, -, h⟩ := Option.bind_eq_some_iff.mp h
    have hmemory := resolve_page_fault_requests h
    obtain ⟨_, _, _, rfl⟩ := resolve_page_fault_frame h
    exact ended_same hs rfl rfl hmemory
  | simulateIo i =>
    obtain ⟨d, -, h⟩ := Option.bind_eq_some_iff.mp h
    obtain ⟨_, _, _, _, rfl⟩ := simulate_io_default_frame h
    exact ended_same hs rfl rfl rfl
  | processDispatch answers =>
    obtain ⟨_, _, _, _, _, _, _, rfl⟩ := process_dispatch_frame h
    exact ended_same hs rfl rfl rfl
  | processInterrupt =>
    obtain ⟨_, _, -, rfl⟩ := process_interrupt_cases h
    exact ended_same hs rfl rfl rfl
  | memoria segments =>
    obtain ⟨request, rest, hq, rfl⟩ := memoria_cases h
    intro pid
    have hold := hs pid
    simp only [ending, hq, List.flatMap_cons, List.countP_append] at hold ⊢
    omega

end Ending

section Requests
variable {cfg : KernelConfig} {s : System}

theorem waits_init_le_one (hb : Balanced cfg s) :
    total (fun c => waitsInit c.thread) s.consoles ≤ 1 := by
  have hle : total (fun c => waitsInit c.thread) s.consoles ≤
      total (fun c => scheduling c.thread) s.consoles := by
    induction s.consoles with
    | nil => simp
    | cons c rest ih =>
      simp only [total_cons]
      have : waitsInit c.thread ≤ scheduling c.thread := by cases h : c.thread <;> simp
      omega
  have := hb.schedule
  unfold scheduleTokens at this
  omega

theorem copies_le_one (hb : Balanced cfg s) : (copies s).length ≤ 1 := by
  have hwaits := waits_init_le_one hb
  have hinit := hb.init
  have hdone : 0 ≤ initDone s.threadMemory := by cases s.threadMemory <;> simp
  unfold initTokens at hinit
  omega

/-- Memory has answered, so no copy of the head of NEW is under way. -/
theorem admittable_no_copies (hb : Balanced cfg s) (h : Admittable s) : copies s = [] := by
  have hwaits := waits_init_le_one hb
  have hinit := hb.init
  have hdone : 0 ≤ initDone s.threadMemory := by cases s.threadMemory <;> simp
  unfold initTokens at hinit
  apply List.length_eq_zero_iff.mp
  rcases h with hone | hsem | ⟨c, hc, hthread⟩
  · omega
  · omega
  · obtain ⟨i, hi⟩ := List.mem_iff_getElem?.mp hc
    have hnone := no_copies hb hi (by simp [hthread]) (by simp [hthread]) (by simp [hthread, initCopy])
    rw [pendingCopies, List.append_eq_nil_iff] at hnone
    simp [hnone.1]

theorem held_of_no_end {requests : List KernelRequest} {held : Finset ℤ} {pid : ℤ}
    (hpid : pid ∈ held) (h : ∀ pcb ∈ requests.flatMap endRequest, pcb.processId ≠ pid) :
    pid ∈ requests.foldl holds held := by
  induction requests generalizing held with
  | nil => exact hpid
  | cons request rest ih =>
    simp only [List.flatMap_cons, List.mem_append] at h
    refine ih ?_ fun pcb hpcb => h pcb (Or.inr hpcb)
    cases request with
    | initProcessStructuresMemory pcb => exact Finset.mem_insert_of_mem hpid
    | requestPageFault pcb _ _ => exact hpid
    | endStructures pcb =>
      exact Finset.mem_erase.mpr ⟨(h pcb (Or.inl (by simp))).symm, hpid⟩

end Requests

section Holding
variable {cfg : KernelConfig} {w w' : Watched}

theorem count_new_head (s : System) {head : Pcb} {rest : List Pcb} (hn : s.listNew = head::rest) :
    1 ≤ countAt s head.processId .new := by
  apply List.countP_pos_iff.mpr
  exact ⟨head, by simp [processesAt, hn], by simp⟩

/-- What a process at one place leaves of the others. -/
theorem count_elsewhere {s : System} (hs : Sound cfg s) {pid : ℤ} {place other : Place}
    (h : 1 ≤ countAt s pid place) (hne : other ≠ place) : countAt s pid other = 0 := by
  have hcreated : Created s pid := by
    by_contra hnot
    have := place_unknown hs.balanced hs.registered hnot place
    omega
  obtain ⟨home, hhome, hothers⟩ := place_unique hs.balanced hs.registered hcreated
  by_cases hplace : place = home
  · subst hplace
    exact hothers other hne
  · have := hothers place hplace
    omega

theorem exit_empty {s : System} {pid : ℤ} (he : Ended s) (h : countAt s pid .exit = 0) :
    ∀ pcb ∈ exiting s.threadDispatch++ending s, pcb.processId ≠ pid := by
  have hcount : (exiting s.threadDispatch++ending s).countP
      (fun pcb => pcb.processId = pid) = 0 := by
    have hend := he pid
    simp only [countAt, processesAt, List.countP_append] at h ⊢
    omega
  intro pcb hpcb hpid
  exact absurd (by simpa using hpid) (List.countP_eq_zero.mp hcount pcb hpcb)

theorem step_tenants {e : Event} (hs : Sound cfg w.system) (ht : Tenants w)
    (h : watch cfg w e = some w') : Tenants w' := by
  have hplaced := step_placed hs ht.placed h
  obtain ⟨t, hstep, rfl⟩ := Option.map_eq_some_iff.mp h
  refine ⟨hplaced, step_ended ht.ended hstep, ?_⟩
  by_cases hmemory : ∃ segments, e = .memoria segments
  · obtain ⟨segments, rfl⟩ := hmemory
    obtain ⟨request, rest, hq, rfl⟩ := memoria_cases hstep
    have hone := copies_le_one hs.balanced
    have hfresh := ht.fresh
    simp only [copies, hq, List.flatMap_cons, List.length_append] at hone
    simp only [hq, List.flatMap_cons, List.mem_append] at hfresh
    intro pcb hpcb
    simp only [handledRequest, hq, List.take_succ_cons, List.take_zero, List.foldl_cons,
      List.foldl_nil]
    cases request with
    | initProcessStructuresMemory p =>
      simp only [initRequest, List.length_singleton] at hone
      have hnone : rest.flatMap initRequest = [] := List.length_eq_zero_iff.mp (by omega)
      rw [show (_ : List Pcb) = [] from hnone] at hpcb
      cases hpcb
    | requestPageFault p _ _ => exact hfresh pcb (Or.inr hpcb)
    | endStructures p => exact fun hin => hfresh pcb (Or.inr hpcb) (Finset.mem_of_mem_erase hin)
  · have hheld : (handledRequest w.system e).foldl holds w.held = w.held := by
      cases e
      case memoria segments => exact absurd ⟨segments, rfl⟩ hmemory
      all_goals rfl
    intro pcb hpcb
    show pcb.processId ∉ (handledRequest w.system e).foldl holds w.held
    rw [hheld]
    rcases requests_sent hstep (by simpa using hmemory) with hsame | ⟨request, hsent, hinit⟩
    · exact ht.fresh pcb (by rwa [← hsame])
    · have hpcb' : pcb ∈ t.toMemory.flatMap initRequest := hpcb
      rw [hsent, List.flatMap_append, List.mem_append] at hpcb'
      rcases hpcb' with hold | hnew
      · exact ht.fresh pcb hold
      · cases request
        case initProcessStructuresMemory p =>
          obtain ⟨i, c, rfl, hc, hthread⟩ := hinit p rfl
          obtain rfl : pcb = p := by simpa using hnew
          -- its process is the head of NEW, and memory will hold none of NEW
          obtain ⟨head, rest, hn, hid⟩ := head_of_copy hs.heads
            (List.mem_append_right (copies w.system) (init_copy_pending hc hthread))
          have hpid : pcb.processId = head.processId := congrArg Prod.fst hid
          have hexit : countAt w.system pcb.processId .exit = 0 :=
            count_elsewhere hs (hpid ▸ count_new_head w.system hn) (by simp)
          intro hin
          have heventual : pcb.processId ∈ eventual w := by
            refine held_of_no_end hin fun p hp => exit_empty ht.ended hexit p ?_
            exact List.mem_append_right _ (List.mem_append_right _ hp)
          obtain ⟨-, thread, hmem, hone⟩ := ht.placed.new _ heventual 0 head (by simp [hn]) hpid.symm
          rw [requested_none hs.balanced hc hthread thread hmem] at hone
          cases hone
        all_goals simp at hnew

end Holding

section Away
variable {cfg : KernelConfig} {s : System} {pid : ℤ}

/-- No copy that is read again is of the process. -/
abbrev Away (pid : ℤ) (s : System) : Prop :=
  Trail (fun pcb => pcb.processId ≠ pid) (fun pcb _ _ => pcb.processId ≠ pid) s

theorem packed_away {package : CpuPackage} (h : (packagePcb package).processId ≠ pid) :
    Packed (fun pcb => pcb.processId ≠ pid) (fun pcb _ _ => pcb.processId ≠ pid) package := by
  cases package <;> exact h

theorem executed_away {cpu : Cpu} {pcb : Pcb} (h : pcb.processId ≠ pid) :
    Executed (fun pcb => pcb.processId ≠ pid) (fun pcb _ _ => pcb.processId ≠ pid) cpu pcb := by
  simpa only [Executed, ite_self] using h

theorem handed_away {thread : ThreadDispatch}
    (h : ∀ pcb ∈ leavingCpu thread++(exiting thread++closing thread), pcb.processId ≠ pid) :
    Handed (fun pcb => pcb.processId ≠ pid) (fun pcb _ _ => pcb.processId ≠ pid) thread := by
  cases thread with
  | postFree package | lockOut package | setFlag package | unlockOut package
  | removeRunning package =>
    apply packed_away
    apply h
    cases hexits : exits package <;> simp [hexits]
  | postGrado package => exact packed_away (h _ (by simp))
  | sendConsole package => exact h _ (by simp)
  | addExit package => exact h _ (by simp)
  | sendMemory package => exact h _ (by simp [closing])
  | sendEnd package =>
    cases package
    case segFault pcb => exact h pcb (by simp [closing])
    all_goals trivial
  | addBlocked pcb _ _ | addTime pcb _ _ | addProcess pcb _ | addReady pcb =>
    exact h pcb (by simp)
  | createThread pcb _ _ => exact h pcb (by simp)
  | receive | postDevice _ | postReady => trivial

theorem away_of (hready : ∀ pcb ∈ processesAt s .ready, pcb.processId ≠ pid)
    (hcpu : ∀ pcb ∈ processesAt s .cpu, pcb.processId ≠ pid)
    (hconsole : ∀ pcb ∈ processesAt s .console, pcb.processId ≠ pid)
    (hdevice : ∀ pcb ∈ processesAt s .device, pcb.processId ≠ pid)
    (hfault : ∀ pcb ∈ processesAt s .pageFault, pcb.processId ≠ pid)
    (hending : ∀ pcb ∈ exiting s.threadDispatch++ending s, pcb.processId ≠ pid)
    (hcopies : ∀ pcb ∈ copies s, pcb.processId ≠ pid)
    (hnew : Admittable s → ∀ pcb ∈ s.listNew.head?, pcb.processId ≠ pid) : Away pid s := by
  simp only [processesAt, List.mem_append] at hready hcpu hconsole hdevice hfault
  simp only [ending, copies, List.mem_append] at hending hcopies
  constructor
  case consoles =>
    intro c hc pcb hpcb
    rcases List.mem_append.mp hpcb with hadmitting | hwith
    · exact hready pcb (Or.inr (List.mem_flatMap.mpr ⟨c, hc, hadmitting⟩))
    · exact hconsole pcb (List.mem_flatMap.mpr ⟨c, hc, hwith⟩)
  case ready =>
    intro pcb hpcb
    simp only [List.mem_append] at hpcb
    exact hready pcb (Or.inl hpcb)
  case scheduler => exact fun pcb hpcb => hcpu pcb (by simp [hpcb])
  case toCpu =>
    intro sent hsent
    have hmem : sent.2 ∈ s.toCpu.map Prod.snd := List.mem_map_of_mem hsent
    exact hcpu sent.2 (by simp only [hmem, true_or, or_true])
  case cpu =>
    cases hthread : s.cpuThread with
    | receive => trivial
    | running dispatch pcb | leaving dispatch pcb =>
      exact executed_away (hcpu pcb (by simp [hthread]))
    | sending reply => exact packed_away (hcpu (packagePcb reply.package) (by simp [hthread]))
  case fromCpu =>
    intro reply hreply
    have hmem : packagePcb reply.package ∈ s.fromCpu.map fun r => packagePcb r.package :=
      List.mem_map_of_mem hreply
    exact packed_away (hcpu _ (by simp only [hmem, true_or, or_true]))
  case dispatch =>
    apply handed_away
    intro pcb hpcb
    simp only [List.mem_append] at hpcb
    rcases hpcb with hleaving | hexiting | hclosing
    · exact hcpu pcb (by simp [hleaving])
    · exact hending pcb (Or.inl hexiting)
    · exact hending pcb (Or.inr (Or.inl hclosing))
  case devices => exact fun d hd pcb hpcb => hdevice pcb (List.mem_flatMap.mpr ⟨d, hd, hpcb⟩)
  case pageFaults =>
    intro p hp
    have hmem {pcb : Pcb} (h : pcb ∈ waitingFault p) : pcb.processId ≠ pid :=
      hfault pcb (Or.inl (Or.inl (Or.inl (List.mem_flatMap.mpr ⟨p, hp, h⟩))))
    cases p with
    | lock pcb _ _ | send pcb _ _ => exact hmem (by simp)
    | finished => trivial
  case toMemory =>
    intro request hrequest
    cases request with
    | initProcessStructuresMemory pcb => trivial
    | requestPageFault pcb _ _ =>
      exact hfault pcb (Or.inl (Or.inl (Or.inr (List.mem_flatMap.mpr ⟨_, hrequest, by simp⟩))))
    | endStructures pcb =>
      exact hending pcb (Or.inr (Or.inr (List.mem_flatMap.mpr ⟨_, hrequest, by simp⟩)))
  case fromMemory =>
    intro response hresponse
    cases response with
    | initProcessStructuresMemoryResponse pcb =>
      exact hcopies pcb (Or.inl (Or.inr (List.mem_flatMap.mpr ⟨_, hresponse, by simp⟩)))
    | responsePageFault pcb =>
      exact hfault pcb (Or.inl (Or.inr (List.mem_flatMap.mpr ⟨_, hresponse, by simp⟩)))
  case memory =>
    cases hthread : s.threadMemory with
    | replaceNew pcb => exact hcopies pcb (Or.inr (by simp [hthread]))
    | addReady pcb => exact hfault pcb (Or.inr (by simp [hthread]))
    | receive | postInit | postReady | unlockPageFault => trivial
  case new => exact hnew

/-- A process past NEW is neither its head nor a copy of it. -/
theorem new_away (hs : Sound cfg s) (h : countAt s pid .new = 0) :
    (∀ pcb ∈ copies s, pcb.processId ≠ pid) ∧ ∀ pcb ∈ s.listNew.head?, pcb.processId ≠ pid := by
  have hhead : ∀ head rest, s.listNew = head::rest → head.processId ≠ pid := by
    rintro head rest hn rfl
    have := count_new_head s hn
    omega
  constructor
  · intro pcb hpcb hpid
    obtain ⟨head, rest, hn, hid⟩ := head_of_copy hs.heads (List.mem_append_left _ hpcb)
    exact hhead head rest hn ((congrArg Prod.fst hid).symm.trans hpid)
  · intro pcb hpcb
    cases hn : s.listNew with
    | nil => simp [hn] at hpcb
    | cons head rest =>
      obtain rfl : head = pcb := by simpa [hn] using hpcb
      exact hhead head rest hn

theorem count_le_one (hs : Sound cfg s) (pid : ℤ) (place : Place) : countAt s pid place ≤ 1 := by
  have hcounts := places_count hs.balanced hs.registered pid
  split at hcounts <;> cases place <;> omega

theorem absent_of_count {place : Place} (h : countAt s pid place = 0) :
    ∀ pcb ∈ processesAt s place, pcb.processId ≠ pid := by
  intro pcb hpcb hpid
  exact absurd (by simpa using hpid) (List.countP_eq_zero.mp h pcb hpcb)

theorem ending_popped {request : KernelRequest} {rest : List KernelRequest}
    (hq : s.toMemory = request::rest) {pcb : Pcb} (h : pcb ∈ ending { s with toMemory := rest }) :
    pcb ∈ ending s := by
  simp only [ending, hq, List.flatMap_cons, List.mem_append] at h ⊢
  tauto

theorem copies_popped {request : KernelRequest} {rest : List KernelRequest}
    (hq : s.toMemory = request::rest) {pcb : Pcb} (h : pcb ∈ copies { s with toMemory := rest }) :
    pcb ∈ copies s := by
  simp only [copies, hq, List.flatMap_cons, List.mem_append] at h ⊢
  tauto

theorem faults_popped {request : KernelRequest} {rest : List KernelRequest}
    (hq : s.toMemory = request::rest) {pcb : Pcb}
    (h : pcb ∈ processesAt { s with toMemory := rest } .pageFault) :
    pcb ∈ processesAt s .pageFault := by
  simp only [processesAt, hq, List.flatMap_cons, List.mem_append] at h ⊢
  tauto

theorem away_fault (hs : Sound cfg s) (he : Ended s) {pcb : Pcb} {segment page : ℤ}
    {rest : List KernelRequest} (hq : s.toMemory = .requestPageFault pcb segment page::rest) :
    Away pcb.processId { s with toMemory := rest } := by
  have hcount : countAt s pcb.processId .pageFault =
      countAt { s with toMemory := rest } pcb.processId .pageFault+1 := by
    simp only [countAt, processesAt, hq, List.flatMap_cons, faultRequested.eq_1,
      List.countP_append, List.countP_singleton, decide_true, if_true]
    omega
  have hone := count_le_one hs pcb.processId .pageFault
  have helse : ∀ place, place ≠ .pageFault → countAt s pcb.processId place = 0 :=
    fun place hne => count_elsewhere hs (by omega) hne
  have hfaults : countAt { s with toMemory := rest } pcb.processId .pageFault = 0 := by omega
  obtain ⟨hcopies, hhead⟩ := new_away hs (helse .new (by simp))
  have hexit := exit_empty he (helse .exit (by simp))
  refine away_of (absent_of_count (helse .ready (by simp))) (absent_of_count (helse .cpu (by simp)))
    (absent_of_count (helse .console (by simp))) (absent_of_count (helse .device (by simp)))
    (absent_of_count hfaults) (fun p hp => ?_) (fun p hp => ?_) (fun _ => hhead)
  · rcases List.mem_append.mp hp with hexiting | hending
    · exact hexit p (List.mem_append_left _ hexiting)
    · exact hexit p (List.mem_append_right _ (ending_popped hq hending))
  · exact hcopies p (copies_popped hq hp)

theorem away_end (hs : Sound cfg s) (he : Ended s) {pcb : Pcb} {rest : List KernelRequest}
    (hq : s.toMemory = .endStructures pcb::rest) :
    Away pcb.processId { s with toMemory := rest } := by
  have hended := he pcb.processId
  have hone := count_le_one hs pcb.processId .exit
  simp only [ending, hq, List.flatMap_cons, endRequest.eq_1, List.countP_append,
    List.countP_singleton, decide_true, if_true] at hended
  simp only [countAt, processesAt, List.countP_append] at hone
  have hexit : 1 ≤ countAt s pcb.processId .exit := by
    simp only [countAt, processesAt, List.countP_append]
    omega
  have helse : ∀ place, place ≠ .exit → countAt s pcb.processId place = 0 :=
    fun place hne => count_elsewhere hs hexit hne
  obtain ⟨hcopies, hhead⟩ := new_away hs (helse .new (by simp))
  refine away_of (absent_of_count (helse .ready (by simp))) (absent_of_count (helse .cpu (by simp)))
    (absent_of_count (helse .console (by simp))) (absent_of_count (helse .device (by simp)))
    (fun p hp => ?_) ?_ (fun p hp => ?_) (fun _ => hhead)
  · exact absent_of_count (helse .pageFault (by simp)) p (faults_popped hq hp)
  · have hnone : (exiting s.threadDispatch++ending { s with toMemory := rest }).countP
        (fun p => p.processId = pcb.processId) = 0 := by
      simp only [ending, List.countP_append]
      omega
    intro p hp hpid
    exact absurd (by simpa using hpid) (List.countP_eq_zero.mp hnone p hp)
  · exact hcopies p (copies_popped hq hp)

theorem away_init (hs : Sound cfg s) (he : Ended s) {pcb : Pcb} {rest : List KernelRequest}
    (hq : s.toMemory = .initProcessStructuresMemory pcb::rest) :
    Away pcb.processId { s with toMemory := rest } := by
  have hcopy : pcb ∈ copies s := by simp [copies, hq]
  obtain ⟨head, later, hn, hid⟩ := head_of_copy hs.heads (List.mem_append_left _ hcopy)
  have hpid : pcb.processId = head.processId := congrArg Prod.fst hid
  have helse : ∀ place, place ≠ .new → countAt s pcb.processId place = 0 :=
    fun place hne => count_elsewhere hs (hpid ▸ count_new_head s hn) hne
  have hexit := exit_empty he (helse .exit (by simp))
  refine away_of (absent_of_count (helse .ready (by simp))) (absent_of_count (helse .cpu (by simp)))
    (absent_of_count (helse .console (by simp))) (absent_of_count (helse .device (by simp)))
    (fun p hp => ?_) (fun p hp => ?_) (fun p hp => ?_) (fun hadmittable => ?_)
  · exact absent_of_count (helse .pageFault (by simp)) p (faults_popped hq hp)
  · rcases List.mem_append.mp hp with hexiting | hending
    · exact hexit p (List.mem_append_left _ hexiting)
    · exact hexit p (List.mem_append_right _ (ending_popped hq hending))
  · -- the copy memory is working on was the only one
    have hone := copies_le_one hs.balanced
    have hnone : copies { s with toMemory := rest } = [] := by
      apply List.length_eq_zero_iff.mp
      simp only [copies, hq, List.flatMap_cons, initRequest.eq_1, List.length_append,
        List.length_singleton] at hone ⊢
      omega
    rw [hnone] at hp
    cases hp
  · have hnone := admittable_no_copies hs.balanced (s := s) hadmittable
    rw [hnone] at hcopy
    cases hcopy

theorem away_turn (hs : Sound cfg s) (he : Ended s) {dispatch : Dispatch} {pcb : Pcb}
    (hthread : s.cpuThread = .running dispatch pcb) :
    Away pcb.processId { s with cpuThread := .receive } := by
  have hcount : countAt s pcb.processId .cpu =
      countAt { s with cpuThread := .receive } pcb.processId .cpu+1 := by
    simp only [countAt, processesAt, hthread, executing.eq_1, executing.eq_2, List.append_nil,
      List.countP_append, List.countP_singleton, decide_true, if_true]
    omega
  have hone := count_le_one hs pcb.processId .cpu
  have helse : ∀ place, place ≠ .cpu → countAt s pcb.processId place = 0 :=
    fun place hne => count_elsewhere hs (by omega) hne
  have hcpu : countAt { s with cpuThread := .receive } pcb.processId .cpu = 0 := by omega
  obtain ⟨hcopies, hhead⟩ := new_away hs (helse .new (by simp))
  exact away_of (absent_of_count (helse .ready (by simp))) (absent_of_count hcpu)
    (absent_of_count (helse .console (by simp))) (absent_of_count (helse .device (by simp)))
    (absent_of_count (helse .pageFault (by simp))) (exit_empty he (helse .exit (by simp))) hcopies
    (fun _ => hhead)

end Away

end Geck.SoleCopy
