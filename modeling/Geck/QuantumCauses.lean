import Geck.KernelSoundness

/-!
# Whose quantum interrupts a process

The CPU does not know which process an `EXECUTE_INTERRUPTION` was meant for. It
preempts the right one if each interruption that it takes finds the dispatch of
its quantum on the CPU or next for it, or finds a process that is leaving anyway.
The kernel sees to that in the runs in which `manage_interrupt`, told that a
quantum ran out, finds RUNNING empty or the dispatch of that quantum still with
the CPU, and in which the CPU returns no process before it has taken what was
sent to it. After a page fault the timer runs on, and the first fails.
-/

set_option autoImplicit false

namespace Geck.QuantumCauses
open Geck.LabelledRuns Geck.CpuTranslation Geck.CpuExecution Geck.CpuFlags Geck.KernelState
open Geck.KernelThreads Geck.KernelFrames Geck.KernelLedger Geck.KernelLaws Geck.KernelInvariant
open Geck.KernelSoundness

def sendingReply : CpuThread → List Reply
  | .sending reply => [reply]
  | _ => []

/-- The packages that the CPU returns. -/
def returns (s : System) : List Reply := s.fromCpu++sendingReply s.cpuThread

def preempted : CpuPackage → Bool
  | .executeInterruption _ => true
  | _ => false

/-- A process is only preempted when the quantum of that same dispatch ran out. -/
def CausesMatch (s : System) : Prop :=
  ∀ reply ∈ returns s, preempted reply.package = true →
    reply.cause = some reply.dispatch ∧ reply.dispatch.timed = true

instance (s : System) : Decidable (CausesMatch s) := inferInstanceAs (Decidable (∀ _ ∈ _, _ → _))

/-- The dispatch that the CPU has or will take next. -/
def inFlight (s : System) : Option Dispatch :=
  match s.cpuThread with
  | .receive => s.toCpu.head?.map Prod.fst
  | .running dispatch _ => some dispatch
  | .leaving dispatch _ => some dispatch
  | .sending _ => none

/-- The process on the CPU leaves for a reason of its own. -/
def stops (s : System) : Bool :=
  match s.cpuThread with
  | .running _ _ => s.cpu.endProcess || s.cpu.inputOuput || s.cpu.pageFault || s.cpu.sigsegv
  | .leaving _ _ => s.cpu.endProcess || s.cpu.inputOuput || s.cpu.pageFault || s.cpu.sigsegv
  | _ => false

/-- The interruption that the CPU takes is of the dispatch that it has, or changes nothing. -/
def Timely (s : System) : Event → Prop
  | .processInterrupt => ∀ dispatch ∈ s.interrupts.head?,
      s.cpu.checkInterruption = true ∨ stops s = true ∨ inFlight s = some dispatch
  | _ => True

instance (s : System) (e : Event) : Decidable (Timely s e) :=
  match e with
  | .processInterrupt => inferInstanceAs (Decidable (∀ _ ∈ _, _))
  | .connect _ _ | .console _ _ | .receiveConsole _ | .scheduleNextToRunning | .manageDispatch
  | .manageInterrupt | .countQuantum _ | .manageMemory | .resolvePageFault _ | .simulateIo _
  | .processDispatch _ | .memoria _ => isTrue trivial

def sends : ThreadInterrupt → List Dispatch
  | .send dispatch => [dispatch]
  | _ => []

/-- The quanta for which an interruption is decided and not taken yet. -/
def decided (s : System) : List Dispatch := sends s.threadInterrupt++s.interrupts

/-- A look of `manage_interrupt` finds RUNNING empty or the dispatch of the quantum. -/
def LooksInTime (s : System) : ThreadInterrupt → Prop
  | .look dispatch => s.listRunning = [] ∨ inFlight s = some dispatch
  | _ => True

instance (s : System) : ∀ thread, Decidable (LooksInTime s thread)
  | .look _ => inferInstanceAs (Decidable (_ ∨ _))
  | .wait | .send _ | .postFinish => isTrue trivial

/-- The CPU returns a process with nothing on its way to it. -/
def LeavesInTime (s : System) : CpuThread → Prop
  | .leaving _ _ => decided s = []
  | _ => True

instance (s : System) : ∀ thread, Decidable (LeavesInTime s thread)
  | .leaving _ _ => inferInstanceAs (Decidable (_ = _))
  | .receive | .running _ _ | .sending _ => isTrue trivial

/-- The same from what the kernel does: it decides no interruption for another process. -/
def Prompt (s : System) : Event → Prop
  | .manageInterrupt => LooksInTime s s.threadInterrupt
  | .processDispatch _ => LeavesInTime s s.cpuThread
  | _ => True

instance (s : System) (e : Event) : Decidable (Prompt s e) :=
  match e with
  | .manageInterrupt => inferInstanceAs (Decidable (LooksInTime s s.threadInterrupt))
  | .processDispatch _ => inferInstanceAs (Decidable (LeavesInTime s s.cpuThread))
  | .connect _ _ | .console _ _ | .receiveConsole _ | .scheduleNextToRunning | .manageDispatch
  | .countQuantum _ | .manageMemory | .resolvePageFault _ | .simulateIo _ | .processInterrupt
  | .memoria _ => isTrue trivial

def begins : ShortTermScheduler → List Dispatch
  | .postBeggin dispatch => [dispatch]
  | _ => []

def counts : SwitcherClock → List Dispatch
  | .unlockFirst dispatch => [dispatch]
  | .resetFlag dispatch => [dispatch]
  | .unlockAgain dispatch => [dispatch]
  | .lock dispatch => [dispatch]
  | .test dispatch => [dispatch]
  | .unlock running => running.toList
  | _ => []

def announces : ThreadInterrupt → List Dispatch
  | .look dispatch => [dispatch]
  | .send dispatch => [dispatch]
  | _ => []

/-- The dispatches with a quantum anywhere between its start and its interruption. -/
def quanta (s : System) : List Dispatch :=
  begins s.shortTermScheduler++s.semBegginQuantum++counts s.switcherClock++
    s.semInterruptionQuantum++announces s.threadInterrupt++s.interrupts

structure Caused (s : System) : Prop where
  check : s.cpu.checkInterruption = true → stops s = true ∨
    ∃ dispatch, s.cause = some dispatch ∧ inFlight s = some dispatch ∧ dispatch.timed = true
  causes : CausesMatch s
  timed : ∀ dispatch ∈ quanta s, dispatch.timed = true

section Steps
variable {cfg : KernelConfig} {s t : System}

/-- A thread that only moves or drops quanta. -/
theorem caused_of_same (hs : Caused s) (hcpu : t.cpu = s.cpu) (hcause : t.cause = s.cause)
    (hthread : t.cpuThread = s.cpuThread) (hto : t.toCpu = s.toCpu)
    (hfrom : t.fromCpu ⊆ s.fromCpu) (hquanta : quanta t ⊆ quanta s) : Caused t where
  check := by
    have := hs.check
    simpa only [stops, inFlight, hcpu, hcause, hthread, hto] using this
  causes := fun reply hreply => by
    apply hs.causes reply
    rw [returns, hthread] at hreply
    rcases List.mem_append.mp hreply with hreply | hreply
    · exact List.mem_append_left _ (hfrom hreply)
    · exact List.mem_append_right _ hreply
  timed := fun dispatch hdispatch => hs.timed dispatch (hquanta hdispatch)

theorem caused_of_undisturbed (hs : Caused s) (h : Undisturbed s t) : Caused t := by
  apply caused_of_same hs h.cpu h.cause h.cpuThread h.toCpu h.fromCpu
  rw [quanta, quanta, h.scheduler, h.beggin, h.clock, h.interruption, h.thread, h.interrupts]
  exact List.Subset.refl _

theorem idle_unchecked (hs : Caused s) (hthread : s.cpuThread = .receive) (hto : s.toCpu = []) :
    s.cpu.checkInterruption = false := by
  by_contra hcheck
  rcases hs.check (by simpa using hcheck) with h | ⟨dispatch, _, h, _⟩
  · simp [stops, hthread] at h
  · simp [inFlight, hthread, hto] at h

theorem schedule_next_to_running_caused (hb : Balanced cfg s) (hs : Caused s)
    (h : scheduleNextToRunning cfg s = some t) : Caused t := by
  cases hthread : s.shortTermScheduler with
  | send pcb timed =>
    obtain ⟨hto, hcpu, -⟩ := holds_cpu_idle hb (by simp [hthread])
    have hcheck := idle_unchecked hs hcpu hto
    simp only [scheduleNextToRunning, hthread, Option.some.injEq] at h
    subst h
    refine ⟨fun h => by simp [hcheck] at h, hs.causes, fun dispatch hdispatch => ?_⟩
    have htimed := hs.timed dispatch
    cases timed with
    | true =>
      simp only [quanta, begins, hthread, List.mem_append, if_true, List.mem_singleton] at hdispatch htimed
      rcases hdispatch with ((((rfl | hdispatch) | hdispatch) | hdispatch) | hdispatch) | hdispatch
      · rfl
      all_goals exact htimed (by tauto)
    | false =>
      simp only [quanta, begins, hthread, Bool.false_eq_true, if_false] at hdispatch htimed
      exact htimed hdispatch
  | postBeggin dispatch =>
    simp only [scheduleNextToRunning, hthread, Option.some.injEq] at h
    subst h
    refine caused_of_same hs rfl rfl rfl rfl (List.Subset.refl _) fun d hd => ?_
    simp only [quanta, begins, hthread, List.mem_append, List.mem_singleton, List.not_mem_nil] at hd ⊢
    tauto
  | _ =>
    simp only [scheduleNextToRunning, hthread] at h
    repeat' split at h
    all_goals simp only [Option.some.injEq, reduceCtorEq] at h
    all_goals subst h
    all_goals refine caused_of_same hs rfl rfl rfl rfl (List.Subset.refl _) fun d hd => ?_
    all_goals simpa only [quanta, begins, hthread] using hd

theorem count_quantum_caused {expired : Bool} (hs : Caused s)
    (h : countQuantumOfRoundRobin cfg s expired = some t) : Caused t := by
  have hquanta : quanta t ⊆ quanta s := by
    unfold countQuantumOfRoundRobin at h
    split at h
    · simp at h
    repeat' split at h
    all_goals simp only [Option.some.injEq, reduceCtorEq] at h
    all_goals subst h
    all_goals intro d hd
    all_goals simp_all only [quanta, counts, List.mem_append, List.mem_cons, List.not_mem_nil,
      Option.toList]
    all_goals tauto
  obtain ⟨_, _, _, _, _, _, rfl⟩ := count_quantum_frame h
  exact caused_of_same hs rfl rfl rfl rfl (List.Subset.refl _) hquanta

theorem manage_interrupt_caused (hs : Caused s) (h : manageInterrupt s = some t) : Caused t := by
  have hquanta : quanta t ⊆ quanta s := by
    unfold manageInterrupt at h
    repeat' split at h
    all_goals simp only [Option.some.injEq, reduceCtorEq] at h
    all_goals subst h
    all_goals intro d hd
    all_goals simp_all only [quanta, announces, List.mem_append, List.mem_cons, List.not_mem_nil]
    all_goals tauto
  obtain ⟨_, _, _, _, rfl⟩ := manage_interrupt_frame h
  exact caused_of_same hs rfl rfl rfl rfl (List.Subset.refl _) hquanta

theorem process_interrupt_caused (hs : Caused s) (htimely : Timely s .processInterrupt)
    (h : processInterrupt s = some t) : Caused t := by
  obtain ⟨dispatch, rest, hq, rfl⟩ := process_interrupt_cases h
  refine ⟨fun _ => ?_, hs.causes, fun d hd => hs.timed d ?_⟩
  · rcases htimely dispatch (by simp [hq]) with hcheck | hstops | hflight
    · have := hs.check hcheck
      simpa only [stops, inFlight, hcheck, if_true] using this
    · exact Or.inl hstops
    · cases hcheck : s.cpu.checkInterruption with
      | true =>
        have := hs.check hcheck
        simpa only [stops, inFlight, if_true] using this
      | false =>
        refine Or.inr ⟨dispatch, rfl, hflight, hs.timed dispatch ?_⟩
        simp [quanta, hq]
  · simp only [quanta, hq, List.mem_append, List.mem_cons] at hd ⊢
    tauto

/-- A process is preempted when the interruption is all that stopped it. -/
theorem leave_process_preempted {cpu cpu' : Cpu} {pcb : SharedPcb.Pcb} {package : CpuPackage}
    (h : leaveProcess cpu pcb = (cpu', some package)) (hpreempted : preempted package = true) :
    cpu.checkInterruption = true ∧
      (cpu.endProcess || cpu.inputOuput || cpu.pageFault || cpu.sigsegv) = false := by
  unfold leaveProcess sendPcbIoPackage at h
  repeat' split at h
  all_goals simp only [Prod.mk.injEq, Option.some.injEq, reduceCtorEq, and_false] at h
  all_goals obtain ⟨-, rfl⟩ := h
  all_goals simp_all [preempted]

theorem process_dispatch_caused {answers : Answers} (hsound : Sound cfg s) (hs : Caused s)
    (h : processDispatch cfg s answers = some t) : Caused t := by
  cases hthread : s.cpuThread with
  | receive =>
    cases hq : s.toCpu with
    | nil => simp [processDispatch, hthread, hq] at h
    | cons sent rest =>
      simp only [processDispatch, hthread, hq, Option.some.injEq] at h
      subst h
      refine ⟨fun hcheck => Or.inr ?_, ?_, hs.timed⟩
      · rcases hs.check hcheck with hstops | ⟨dispatch, hcause, hflight, htimed⟩
        · simp [stops, hthread] at hstops
        · exact ⟨dispatch, hcause, by simpa [inFlight, hthread, hq] using hflight, htimed⟩
      · have := hs.causes
        simpa only [CausesMatch, returns, hthread, sendingReply] using this
  | running dispatch pcb =>
    have hcauses := hs.causes
    simp only [CausesMatch, returns, hthread] at hcauses
    simp only [processDispatch, hthread] at h
    split at h
    next hkeep =>
      simp only [Option.bind_eq_bind, Option.bind_eq_some_iff, Option.some.injEq] at h
      obtain ⟨⟨cpu, pcb', made⟩, hcycle, rfl⟩ := h
      have hcheck := (instruction_cycle_flags (clear_of_running hkeep) hcycle).1
      refine ⟨fun hset => ?_, hcauses, hs.timed⟩
      simp only [keepsRunning, Bool.and_eq_true, Bool.not_eq_true'] at hkeep
      simp only at hset
      rw [hcheck, hkeep.1.1.1.1] at hset
      exact absurd hset Bool.false_ne_true
    next =>
      simp only [Option.some.injEq] at h
      subst h
      refine ⟨fun hset => ?_, hcauses, hs.timed⟩
      have := hs.check hset
      simpa only [stops, inFlight, hthread] using this
  | leaving dispatch pcb =>
    obtain ⟨cpu, package, hpackage, hclear, hcheck⟩ := leaving_flags hsound.flags hthread
    simp only [processDispatch, hthread, hpackage, Option.some.injEq] at h
    subst h
    refine ⟨fun hset => by simp [hcheck] at hset, fun reply hreply hpreempted => ?_, hs.timed⟩
    rcases List.mem_append.mp hreply with hreply | hreply
    · exact hs.causes reply (List.mem_append_left _ hreply) hpreempted
    · obtain rfl := List.mem_singleton.mp hreply
      obtain ⟨hset, hother⟩ := leave_process_preempted hpackage hpreempted
      rcases hs.check hset with hstops | ⟨d, hcause, hflight, htimed⟩
      · simp [stops, hthread, hother] at hstops
      · obtain rfl : dispatch = d := by simpa [inFlight, hthread] using hflight
        exact ⟨hcause, htimed⟩
  | sending reply =>
    simp only [processDispatch, hthread, Option.some.injEq] at h
    subst h
    refine ⟨fun hset => ?_, ?_, hs.timed⟩
    · rcases hs.check hset with hstops | ⟨d, hcause, hflight, htimed⟩
      · simp [stops, hthread] at hstops
      · simp [inFlight, hthread] at hflight
    · have := hs.causes
      simpa only [CausesMatch, returns, hthread, sendingReply, List.append_nil] using this

theorem step_caused {e : Event} (hsound : Sound cfg s) (hs : Caused s) (htimely : Timely s e)
    (h : step cfg s e = some t) : Caused t := by
  cases e with
  | scheduleNextToRunning => exact schedule_next_to_running_caused hsound.balanced hs h
  | manageInterrupt => exact manage_interrupt_caused hs h
  | countQuantum expired => exact count_quantum_caused hs h
  | processDispatch answers => exact process_dispatch_caused hsound hs h
  | processInterrupt => exact process_interrupt_caused hs htimely h
  | _ => exact caused_of_undisturbed hs (distant_undisturbed rfl h)

/-- Why the guard asks no less: an interruption of another dispatch preempts the
process that runs. -/
theorem untimely_preempts {dispatch running : Dispatch} {rest : List Dispatch} {pcb : SharedPcb.Pcb}
    (hthread : s.cpuThread = .running running pcb) (hkeep : keepsRunning s.cpu = true)
    (hinterrupts : s.interrupts = dispatch::rest) (hother : dispatch ≠ running)
    (answers : Answers) : ∃ t,
      run (step cfg) s [.processInterrupt, .processDispatch answers, .processDispatch answers] = some t ∧
        ¬CausesMatch t := by
  obtain ⟨⟨hend, hio, hseg⟩, hfault⟩ := clear_of_running hkeep
  have hcheck : s.cpu.checkInterruption = false := by
    simp only [keepsRunning, Bool.and_eq_true, Bool.not_eq_true'] at hkeep
    exact hkeep.1.1.1.1
  refine ⟨_, by simp [run, step, processInterrupt, processDispatch, hinterrupts, hthread,
    keepsRunning, leaveProcess, hend, hio, hseg, hfault, hcheck]; rfl, fun hmatch => ?_⟩
  have hcause := (hmatch _ (List.mem_append_right _ (List.mem_singleton_self _)) rfl).1
  exact hother (Option.some.inj hcause)

/-- What is decided and not taken yet is meant for the dispatch that the CPU has. -/
def InTime (s : System) : Prop := ∀ dispatch ∈ decided s, inFlight s = some dispatch

theorem in_time_timely {e : Event} (h : InTime s) : Timely s e := by
  cases e with
  | processInterrupt =>
    intro dispatch hdispatch
    exact Or.inr (Or.inr (h dispatch (List.mem_append_right _ (List.mem_of_mem_head? hdispatch))))
  | _ => trivial

theorem nothing_decided (h : InTime s) (hflight : inFlight s = none) : decided s = [] := by
  apply List.eq_nil_iff_forall_not_mem.mpr
  intro dispatch hdispatch
  have := h dispatch hdispatch
  simp [hflight] at this

theorem in_time_of_same (h : InTime s) (hflight : inFlight t = inFlight s)
    (hdecided : decided t ⊆ decided s) : InTime t := by
  intro dispatch hdispatch
  rw [hflight]
  exact h dispatch (hdecided hdispatch)

theorem in_time_of_nothing (h : decided t = []) : InTime t := by
  intro dispatch hdispatch
  simp [h] at hdispatch

theorem in_time_of_undisturbed (hs : InTime s) (h : Undisturbed s t) : InTime t := by
  apply in_time_of_same hs
  · rw [inFlight, inFlight, h.cpuThread, h.toCpu]
  · rw [decided, decided, h.thread, h.interrupts]
    exact List.Subset.refl _

theorem schedule_next_to_running_in_time (hb : Balanced cfg s) (hs : InTime s)
    (h : scheduleNextToRunning cfg s = some t) : InTime t := by
  cases hthread : s.shortTermScheduler with
  | send pcb timed =>
    obtain ⟨hto, hcpu, -⟩ := holds_cpu_idle hb (by simp [hthread])
    have hnothing := nothing_decided hs (by simp [inFlight, hcpu, hto])
    simp only [scheduleNextToRunning, hthread, Option.some.injEq] at h
    subst h
    exact in_time_of_nothing hnothing
  | _ =>
    simp only [scheduleNextToRunning, hthread] at h
    repeat' split at h
    all_goals simp only [Option.some.injEq, reduceCtorEq] at h
    all_goals subst h
    all_goals exact in_time_of_same hs rfl (List.Subset.refl _)

theorem manage_interrupt_in_time (hs : InTime s) (hprompt : Prompt s .manageInterrupt)
    (h : manageInterrupt s = some t) : InTime t := by
  cases hthread : s.threadInterrupt with
  | look dispatch =>
    simp only [Prompt, LooksInTime, hthread] at hprompt
    simp only [manageInterrupt, hthread, Option.some.injEq] at h
    subst h
    intro d hd
    rcases List.mem_append.mp hd with hd | hd
    · have hlook : s.listRunning ≠ [] := by
        intro hempty
        simp [hempty, sends] at hd
      simp only [hlook, if_false, sends, List.mem_singleton] at hd
      rw [hd]
      exact hprompt.resolve_left hlook
    · exact hs d (List.mem_append_right _ hd)
  | _ =>
    simp only [manageInterrupt, hthread] at h
    repeat' split at h
    all_goals simp only [Option.some.injEq, reduceCtorEq] at h
    all_goals subst h
    all_goals refine in_time_of_same hs rfl fun d hd => ?_
    all_goals simp only [decided, sends, hthread, List.mem_append] at hd ⊢
    all_goals tauto

theorem process_dispatch_in_time {answers : Answers} (hs : InTime s)
    (hprompt : Prompt s (.processDispatch answers))
    (h : processDispatch cfg s answers = some t) : InTime t := by
  cases hthread : s.cpuThread with
  | receive =>
    cases hq : s.toCpu with
    | nil => simp [processDispatch, hthread, hq] at h
    | cons sent rest =>
      simp only [processDispatch, hthread, hq, Option.some.injEq] at h
      subst h
      exact in_time_of_same hs (by simp [inFlight, hthread, hq]) (List.Subset.refl _)
  | running dispatch pcb =>
    simp only [processDispatch, hthread] at h
    split at h
    next hkeep =>
      simp only [Option.bind_eq_bind, Option.bind_eq_some_iff, Option.some.injEq] at h
      obtain ⟨⟨cpu, pcb', made⟩, -, rfl⟩ := h
      exact in_time_of_same hs (by simp [inFlight, hthread]) (List.Subset.refl _)
    next =>
      simp only [Option.some.injEq] at h
      subst h
      exact in_time_of_same hs (by simp [inFlight, hthread]) (List.Subset.refl _)
  | leaving dispatch pcb =>
    simp only [Prompt, LeavesInTime, hthread] at hprompt
    simp only [processDispatch, hthread] at h
    split at h
    all_goals simp only [Option.some.injEq] at h
    all_goals subst h
    all_goals exact in_time_of_nothing hprompt
  | sending reply =>
    have hnothing := nothing_decided hs (by simp [inFlight, hthread])
    simp only [processDispatch, hthread, Option.some.injEq] at h
    subst h
    exact in_time_of_nothing hnothing

theorem step_in_time {e : Event} (hsound : Sound cfg s) (hs : InTime s) (hprompt : Prompt s e)
    (h : step cfg s e = some t) : InTime t := by
  cases e with
  | scheduleNextToRunning => exact schedule_next_to_running_in_time hsound.balanced hs h
  | manageInterrupt => exact manage_interrupt_in_time hs hprompt h
  | countQuantum expired =>
    obtain ⟨_, _, _, _, _, _, rfl⟩ := count_quantum_frame h
    exact in_time_of_same hs rfl (List.Subset.refl _)
  | processDispatch answers => exact process_dispatch_in_time hs hprompt h
  | processInterrupt =>
    obtain ⟨dispatch, rest, hq, rfl⟩ := process_interrupt_cases h
    refine in_time_of_same hs rfl fun d hd => ?_
    simp only [decided, hq, List.mem_append, List.mem_cons] at hd ⊢
    tauto
  | _ => exact in_time_of_undisturbed hs (distant_undisturbed rfl h)

end Steps

/-- Along a prompt run every interruption is timely. -/
theorem prompt_timely (cfg : KernelConfig) (es : List Event) (s : System) (hsound : Sound cfg s)
    (hs : InTime s) (h : Guarded (step cfg) Prompt s es) : Guarded (step cfg) Timely s es := by
  induction es generalizing s with
  | nil => trivial
  | cons e es ih =>
    refine ⟨in_time_timely hs, fun t ht => ?_⟩
    exact ih t (step_sound hsound ht) (step_in_time hsound hs h.1 ht) (h.2 t ht)

theorem boot_caused (cfg : KernelConfig) (time : TimeVal) : Caused (boot cfg time) where
  check := by simp [boot, initCpu]
  causes := by simp [CausesMatch, returns, boot, sendingReply]
  timed := by simp [quanta, boot, begins, counts, announces]

/-- In a run whose interruptions are all decided for the process on the CPU, or
at least reach the dispatch of their quantum, every preemption is of a process
whose own quantum ran out. -/
theorem causes_match (cfg : KernelConfig) (time : TimeVal) (es : List Event)
    (h : Guarded (step cfg) Prompt (boot cfg time) es ∨
      Guarded (step cfg) Timely (boot cfg time) es) :
    Always (step cfg) CausesMatch (boot cfg time) es := by
  have htimely : Guarded (step cfg) Timely (boot cfg time) es := by
    rcases h with hprompt | htimely
    · exact prompt_timely cfg es _ (boot_sound cfg time) (in_time_of_nothing rfl) hprompt
    · exact htimely
  exact always_of_guarded (step cfg) (fun s => Sound cfg s ∧ Caused s) CausesMatch Timely
    (fun _ _ _ hs htimely h => ⟨step_sound hs.1 h, step_caused hs.1 hs.2 htimely h⟩)
    (fun _ hs => hs.2.causes) es _ ⟨boot_sound cfg time, boot_caused cfg time⟩ htimely

/-- The quantum of the first dispatch runs out and RUNNING is not empty. -/
def interrupting : List Event :=
  List.replicate 9 (.countQuantum true)++List.replicate 3 .manageInterrupt++[.processInterrupt]

/-- A process is preempted at the end of its quantum. -/
def preemptingRun : List Event :=
  admission 0 ["SET AX 1", "EXIT"]++dispatching .rr++List.replicate 2 (.processDispatch faulting)++
    interrupting++List.replicate 3 (.processDispatch faulting)

theorem causes_match_preempting :
    Guarded (step (smallKernel .rr)) Prompt (boot (smallKernel .rr) midnight) preemptingRun ∧
      Always (step (smallKernel .rr)) CausesMatch (boot (smallKernel .rr) midnight) preemptingRun :=
  ⟨by decide +kernel, causes_match _ _ _ (Or.inl (by decide +kernel))⟩

/-- The first process faults; the second is on the CPU when the quantum runs out. -/
def strayRun : List Event :=
  admission 0 ["MOV_IN AX 0", "EXIT"]++admission 1 ["SET AX 1", "EXIT"]++dispatching .rr++stopping++
    List.replicate 4 .manageDispatch++dispatching .rr++[.processDispatch faulting]++interrupting++
    List.replicate 2 (.processDispatch faulting)

theorem stray_interruption_preempts :
    run (step (smallKernel .rr)) (boot (smallKernel .rr) midnight) strayRun =
        some (reached (step (smallKernel .rr)) (boot (smallKernel .rr) midnight) strayRun) ∧
      ¬CausesMatch (reached (step (smallKernel .rr)) (boot (smallKernel .rr) midnight) strayRun) :=
  ⟨run_reached _ _ _ (by decide +kernel), by decide +kernel⟩

end Geck.QuantumCauses
