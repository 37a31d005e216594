import Geck.MachineProgress
import Geck.ReadyOrder
import Geck.ReadyTokens

/-!
# A process that faulted runs again

Memory's answer puts the process back in READY, and the scheduler takes it from
there when its turn comes: no run goes past it for longer than its programs and
its place in the queue allow, and none ends before. Two tokens can be lost on
the way: the one of an answer under FEEDBACK and the one of a handshake.
-/

set_option autoImplicit false

namespace Geck.FaultResumption
open Geck.LabelledRuns Geck.Tallies Geck.BlockStore Geck.SharedPcb Geck.MemoryState
open Geck.MemoryHandlers Geck.MemoryAccounting Geck.MemoryFaults Geck.CpuTranslation
open Geck.CpuExecution Geck.KernelState Geck.KernelThreads Geck.KernelFrames Geck.KernelLedger
open Geck.KernelLaws Geck.KernelInvariant Geck.KernelSoundness Geck.ProcessCensus Geck.WholeMachine
open Geck.ProcessMoves Geck.AccessFaults Geck.Lifecycle Geck.MemoryPromises Geck.Standstill
open Geck.MachineProgress Geck.QuantumHandshake Geck.ReadyTokens Geck.ReadyOrder

/-- No answer to a page fault is enqueued under FEEDBACK, which posts nothing for it, and a
quantum that ends finds list_RUNNING empty once at most. -/
def KeepsTokens (cfg : KernelConfig) (w : Machine) : Action → Prop
  | .thread e => Posts cfg w.system e ∧ lost w.system+emptyLook w.system e ≤ 1
  | _ => True

/-- What is asked of a run, with `limit` the length of the longest program. -/
def Regular (cfg : KernelConfig) (mcfg : MemoryConfig) (limit : ℕ) (w : Machine) (a : Action) :
    Prop :=
  (Resourced mcfg w a ∧ BriefAction limit w a) ∧ KeepsTokens cfg w a

instance (cfg : KernelConfig) (s : System) : Decidable (Unposted cfg s) :=
  decidable_of_iff (cfg.algoritmoPlanificacion = .feedback ∧
    (faultResolved s.threadMemory).length ≠ 0) <| by
      cases h : s.threadMemory <;> simp [Unposted, h]

instance (cfg : KernelConfig) (s : System) : ∀ e, Decidable (Posts cfg s e)
  | .manageMemory => inferInstanceAs (Decidable (¬Unposted cfg s))
  | .connect _ _ | .console _ _ | .receiveConsole _ | .scheduleNextToRunning | .manageDispatch
  | .manageInterrupt | .countQuantum _ | .resolvePageFault _ | .simulateIo _ | .processDispatch _
  | .processInterrupt | .memoria _ => isTrue trivial

instance (cfg : KernelConfig) (w : Machine) : ∀ a, Decidable (KeepsTokens cfg w a)
  | .thread e => inferInstanceAs
      (Decidable (Posts cfg w.system e ∧ lost w.system+emptyLook w.system e ≤ 1))
  | .attendKernel | .attendCpu _ | .processDispatch _ _ => isTrue trivial

instance (cfg : KernelConfig) (mcfg : MemoryConfig) (limit : ℕ) (w : Machine) (a : Action) :
    Decidable (Regular cfg mcfg limit w a) :=
  inferInstanceAs (Decidable ((Resourced mcfg w a ∧ BriefAction limit w a) ∧ KeepsTokens cfg w a))

/-- The instruction of a fault, its page and how often it has faulted: all but the frame. -/
def access (f : Fault) : ℤ × ℤ × ℤ × ℕ := (f.programCounter, f.segment, f.page, f.count)

/-- In some state of the run the process has the CPU and is still at the access that faulted. -/
def DispatchedAgain (cfg : KernelConfig) (mcfg : MemoryConfig) (w : Machine) (actions : List Action)
    (pid : ℤ) (f : Fault) : Prop :=
  ∃ before rest v, actions = before++rest ∧ run (act cfg mcfg) w before = some v ∧
    placeOf v.system pid = some .cpu ∧ ∃ f', v.faults pid = some f' ∧ access f' = access f

/-- The process of a page fault is with memory, or memory has answered. -/
def Waits (w : Machine) (pid : ℤ) (f : Fault) : Prop :=
  (placeOf w.system pid = some .pageFault ∨ placeOf w.system pid = some .ready) ∧
    ∃ f', w.faults pid = some f' ∧ access f' = access f

def armed : SwitcherClock → ℤ
  | .unlockFirst _ => 1
  | .resetFlag _ => 1
  | .unlockAgain _ => 1
  | .lock _ => 1
  | .test _ => 1
  | .unlock (some _) => 1
  | _ => 0

attribute [local simp] armed.eq_1 armed.eq_2 armed.eq_3 armed.eq_4 armed.eq_5 armed.eq_6

def timing : ShortTermScheduler → ℤ
  | .addRunning _ true => 1
  | .send _ true => 1
  | .postBeggin _ => 1
  | _ => 0

/-- The quanta that may still end though nothing more is chosen. -/
def quanta (s : System) : ℤ :=
  s.semBegginQuantum.length+armed s.switcherClock+timing s.shortTermScheduler

section Quanta
variable {cfg : KernelConfig} {s t : System}

theorem schedule_next_to_running_quanta (h : scheduleNextToRunning cfg s = some t) :
    quanta t ≤ quanta s+(chosen cfg s .scheduleNextToRunning).length := by
  cases hthread : s.shortTermScheduler with
  | choose =>
    cases halg : cfg.algoritmoPlanificacion
    all_goals
      simp only [scheduleNextToRunning, hthread, halg] at h
      split at h
      all_goals simp only [Option.some.injEq, reduceCtorEq] at h
      all_goals
        subst h
        simp [quanta, timing, chosen, headOf, queueOf, target, *]
  | chooseFifo =>
    simp only [scheduleNextToRunning, hthread] at h
    split at h
    all_goals
      simp only [Option.some.injEq] at h
      subst h
      simp [quanta, timing, chosen, headOf, queueOf, *]
  | addRunning pcb timed =>
    simp only [scheduleNextToRunning, hthread, Option.some.injEq] at h
    subst h
    cases timed <;> simp [quanta, timing, chosen, hthread]
  | send pcb timed =>
    simp only [scheduleNextToRunning, hthread, Option.some.injEq] at h
    subst h
    cases timed <;> simp [quanta, timing, chosen, hthread]
  | postBeggin dispatch =>
    simp only [scheduleNextToRunning, hthread, Option.some.injEq] at h
    subst h
    simp only [quanta, timing, chosen, hthread, List.length_append, List.length_singleton,
      List.length_nil]
    push_cast
    omega
  | _ =>
    simp only [scheduleNextToRunning, hthread] at h
    repeat' split at h
    all_goals simp only [Option.some.injEq, reduceCtorEq] at h
    all_goals
      subst h
      simp [quanta, timing, chosen, hthread]

theorem count_quantum_quanta {expired : Bool} (h : countQuantumOfRoundRobin cfg s expired = some t) :
    quanta t+KernelWork.expires s (.countQuantum expired) ≤ quanta s := by
  unfold countQuantumOfRoundRobin at h
  split at h
  · simp at h
  cases hclock : s.switcherClock with
  | waitBeggin =>
    simp only [hclock] at h
    split at h
    · simp at h
    next dispatch rest hsem =>
      simp only [Option.some.injEq] at h
      subst h
      simp only [quanta, KernelWork.expires, hclock, hsem, armed, List.length_cons]
      push_cast
      omega
  | test dispatch =>
    simp only [hclock] at h
    repeat' split at h
    all_goals simp only [Option.some.injEq] at h
    all_goals subst h
    all_goals simp_all [quanta, KernelWork.expires, armed]
  | unlock running =>
    simp only [hclock, Option.some.injEq] at h
    subst h
    cases running <;> simp [quanta, KernelWork.expires, hclock, armed]
  | _ =>
    simp only [hclock] at h
    repeat' split at h
    all_goals simp only [Option.some.injEq, reduceCtorEq] at h
    all_goals
      subst h
      simp [quanta, KernelWork.expires, hclock, armed]

/-- A quantum that ends was begun for a process that was chosen. -/
theorem step_quanta {e : Event} (h : step cfg s e = some t) :
    quanta t+KernelWork.expires s e ≤ quanta s+(chosen cfg s e).length := by
  cases e with
  | scheduleNextToRunning =>
    have := schedule_next_to_running_quanta h
    simpa [KernelWork.expires] using this
  | countQuantum expired =>
    have := count_quantum_quanta h
    simpa [chosen] using this
  | manageInterrupt =>
    obtain ⟨_, _, _, _, rfl⟩ := manage_interrupt_frame h
    simp [quanta, KernelWork.expires, chosen]
  | processDispatch answers =>
    obtain ⟨_, _, _, _, _, _, _, rfl⟩ := process_dispatch_frame h
    simp [quanta, KernelWork.expires, chosen]
  | processInterrupt =>
    obtain ⟨_, _, -, rfl⟩ := process_interrupt_cases h
    simp [quanta, KernelWork.expires, chosen]
  | _ =>
    have hsame := distant_undisturbed rfl h
    simp [quanta, KernelWork.expires, chosen, hsame.clock, hsame.beggin, hsame.scheduler]

end Quanta

/-- What the threads, memory and the CPU keep in a regular run. -/
structure Resuming (cfg : KernelConfig) (mcfg : MemoryConfig) (limit : ℕ) (w : Machine) : Prop where
  paid : Paid cfg mcfg limit w
  tokens : TokensMatch cfg w.system
  handshake : lost w.system ≤ 1

section Steps
variable {cfg : KernelConfig} {mcfg : MemoryConfig} {limit : ℕ} {w w' : Machine} {a : Action}

/-- An action as a step of the kernel; memory's turn for the CPU is none. -/
theorem act_step (valid : ValidConfig mcfg) (hw : Coherent cfg mcfg w) (hg : Resourced mcfg w a)
    (h : act cfg mcfg w a = some w') :
    (∃ e, a = .thread e ∧ step cfg w.system e = some w'.system) ∨
    (a = .attendKernel ∧ ∃ segments, step cfg w.system (.memoria segments) = some w'.system) ∨
    (∃ request, a = .attendCpu request ∧ w'.system = w.system) ∨
    ∃ value times, a = .processDispatch value times ∧ step cfg w.system
      (.processDispatch (executionAnswers cfg mcfg w value times)) = some w'.system := by
  rcases act_cases h with ⟨e, t, rfl, -, ht, rfl⟩ |
    ⟨request, rest, memory, answer, rfl, hq, hserved, rfl⟩ |
    ⟨request, memory, answer, rfl, -, rfl⟩ | ⟨value, times, t, rfl, ht, rfl⟩
  · exact Or.inl ⟨e, rfl, ht⟩
  · obtain ⟨memory', answer', hserved', hanswered⟩ := next_request_served valid hw hq hg
    obtain ⟨rfl, rfl⟩ : memory' = memory ∧ answer' = answer := by
      simpa [hserved] using hserved'.symm
    exact Or.inr (Or.inl ⟨rfl, served_step cfg hq hserved hanswered⟩)
  · exact Or.inr (Or.inr (Or.inl ⟨request, rfl, rfl⟩))
  · exact Or.inr (Or.inr (Or.inr ⟨value, times, rfl, ht⟩))

theorem act_resuming (valid : ValidConfig mcfg) (hw : Resuming cfg mcfg limit w)
    (hg : Regular cfg mcfg limit w a) (h : act cfg mcfg w a = some w') :
    Resuming cfg mcfg limit w' := by
  obtain ⟨⟨hresourced, hbrief⟩, htokens⟩ := hg
  refine ⟨(act_paid valid hw.paid hresourced hbrief h).1, ?_, ?_⟩
  all_goals
    have hsound := hw.paid.coherent.sound
    have hlost := hw.handshake
    rcases act_step valid hw.paid.coherent hresourced h with ⟨e, rfl, ht⟩ | ⟨rfl, segments, ht⟩ |
      ⟨request, rfl, hsame⟩ | ⟨value, times, rfl, ht⟩
  · exact (step_tokens hsound hw.tokens ht).mpr htokens.1
  · exact (step_tokens hsound hw.tokens ht).mpr trivial
  · exact hsame ▸ hw.tokens
  · exact (step_tokens hsound hw.tokens ht).mpr trivial
  · rw [step_lost ht]
    exact htokens.2
  · rw [step_lost ht]
    simpa [emptyLook] using hlost
  · exact hsame ▸ hlost
  · rw [step_lost ht]
    simpa [emptyLook] using hlost

theorem start_resuming (valid : ValidConfig mcfg) (limit : ℕ) (time : TimeVal)
    (ram swap : ℕ → UInt8) : Resuming cfg mcfg limit (start cfg mcfg time ram swap) :=
  ⟨start_paid valid limit time ram swap, (tokens_match_iff cfg _).mpr (boot_stranded cfg time),
    le_of_eq_of_le (rfl : lost (KernelState.boot cfg time) = 0) zero_le_one⟩

/-- From READY a process goes to the CPU only, and from a page fault to READY only. -/
theorem waiting_live {lives lives' : Lives} {moves : List (ℤ × Place)} {pid : ℤ}
    (hone : moves.length ≤ 1) (h : run live lives moves = some lives')
    (hwaits : lives pid = some .pageFault ∨ lives pid = some .ready) :
    (lives' pid = some .pageFault ∨ lives' pid = some .ready) ∨ lives' pid = some .cpu := by
  match moves, hone with
  | [], _ =>
    obtain rfl : lives = lives' := by simpa [run] using h
    exact Or.inl hwaits
  | [(other, place)], _ =>
    obtain ⟨next, hnext, hrest⟩ := (run_cons_some live).mp h
    obtain ⟨htransition, rfl⟩ := live_some hnext
    obtain rfl := Option.some.inj hrest
    by_cases hpid : pid = other
    · subst hpid
      rw [Function.update_self]
      rcases hwaits with hat | hat
      all_goals
        simp only [hat] at htransition
        cases place <;> simp_all [transition]
    · rw [Function.update_of_ne hpid]
      exact Or.inl hwaits

theorem waiting_step {e : Event} {s t : System} (hs : Sound cfg s) (h : step cfg s e = some t)
    {pid : ℤ} (hwaits : placeOf s pid = some .pageFault ∨ placeOf s pid = some .ready) :
    (placeOf t pid = some .pageFault ∨ placeOf t pid = some .ready) ∨ placeOf t pid = some .cpu :=
  waiting_live (step_live hs h).1 (step_live hs h).2 hwaits

/-- A fault stays at its access while its process waits. -/
theorem act_access (hw : Paid cfg mcfg limit w) (h : act cfg mcfg w a = some w') {pid : ℤ}
    {f : Fault} (hwaits : placeOf w.system pid = some .pageFault ∨ placeOf w.system pid = some .ready)
    (hf : w.faults pid = some f) : ∃ f', w'.faults pid = some f' ∧ access f' = access f := by
  have hsound := hw.coherent.sound
  rcases act_cases h with ⟨e, t, rfl, -, -, rfl⟩ |
    ⟨request, rest, memory, answer, rfl, hq, -, rfl⟩ | ⟨request, memory, answer, rfl, -, rfl⟩ |
    ⟨value, times, t, rfl, -, rfl⟩
  · exact ⟨f, hf, rfl⟩
  · cases request with
    | initProcessStructuresMemory pcb =>
      have hserved := served_faults hw hq pid
      by_cases hpid : pid = pcb.processId
      · subst hpid
        simp [faultsServed, hf] at hserved
      · exact ⟨f, by simp [served, faultsServed, Function.update_of_ne hpid, hf], rfl⟩
    | requestPageFault pcb segment page =>
      by_cases hpid : pid = pcb.processId
      · subst hpid
        refine ⟨{ f with frame := (chooseFrame mcfg w.memory pcb.processId).map Prod.snd }, ?_, rfl⟩
        simp [served, faultsServed, hf]
      · exact ⟨f, by simp [served, faultsServed, Function.update_of_ne hpid, hf], rfl⟩
    | endStructures pcb => exact ⟨f, hf, rfl⟩
  · exact ⟨f, hf, rfl⟩
  · refine ⟨f, ?_, rfl⟩
    cases hthread : w.system.cpuThread with
    | running dispatch pcb =>
      have hplace : placeOf w.system pcb.processId = some .cpu :=
        place_of_mem hsound (by simp [processesAt, hthread])
      have hpid : pid ≠ pcb.processId := by
        rintro rfl
        simp [hplace] at hwaits
      simp only [faultsExecuted, hthread]
      split
      · rw [Function.update_of_ne hpid, hf]
      · exact hf
    | _ => simp [faultsExecuted, hthread, hf]

/-- A process that waits goes on waiting or is given the CPU, and its fault is the same. -/
theorem act_waits (valid : ValidConfig mcfg) (hw : Resuming cfg mcfg limit w)
    (hg : Regular cfg mcfg limit w a) (h : act cfg mcfg w a = some w') {pid : ℤ} {f : Fault}
    (hwaits : Waits w pid f) :
    Waits w' pid f ∨ (placeOf w'.system pid = some .cpu ∧
      ∃ f', w'.faults pid = some f' ∧ access f' = access f) := by
  obtain ⟨hplace, f₀, hf₀, hsame⟩ := hwaits
  obtain ⟨f', hf', haccess⟩ := act_access hw.paid h hplace hf₀
  have hfault : ∃ f', w'.faults pid = some f' ∧ access f' = access f :=
    ⟨f', hf', haccess.trans hsame⟩
  have hsound := hw.paid.coherent.sound
  have hmoves : (placeOf w'.system pid = some .pageFault ∨ placeOf w'.system pid = some .ready) ∨
      placeOf w'.system pid = some .cpu := by
    rcases act_step valid hw.paid.coherent hg.1.1 h with ⟨e, -, ht⟩ | ⟨-, segments, ht⟩ |
      ⟨request, -, hsystem⟩ | ⟨value, times, -, ht⟩
    · exact waiting_step hsound ht hplace
    · exact waiting_step hsound ht hplace
    · exact Or.inl (hsystem ▸ hplace)
    · exact waiting_step hsound ht hplace
  exact hmoves.imp (fun hwaiting => ⟨hwaiting, hfault⟩) fun hcpu => ⟨hcpu, hfault⟩

end Steps

section Runs
variable {cfg : KernelConfig} {mcfg : MemoryConfig} {limit : ℕ} {w u : Machine}
  {actions : List Action} {pid : ℤ} {f : Fault}

theorem run_resuming (valid : ValidConfig mcfg) (hw : Resuming cfg mcfg limit w)
    (hg : Guarded (act cfg mcfg) (Regular cfg mcfg limit) w actions)
    (h : run (act cfg mcfg) w actions = some u) : Resuming cfg mcfg limit u :=
  guarded_run (act cfg mcfg) (Resuming cfg mcfg limit) (Regular cfg mcfg limit)
    (fun _ _ _ hi hr ht => act_resuming valid hi hr ht) actions w u hw hg h

theorem waits_or_dispatched (valid : ValidConfig mcfg) (hw : Resuming cfg mcfg limit w)
    (hwaits : Waits w pid f) (hg : Guarded (act cfg mcfg) (Regular cfg mcfg limit) w actions)
    (h : run (act cfg mcfg) w actions = some u) :
    Waits u pid f ∨ DispatchedAgain cfg mcfg w actions pid f :=
  run_leads (act cfg mcfg) (Resuming cfg mcfg limit) (fun w => Waits w pid f)
    (fun w => placeOf w.system pid = some .cpu ∧ ∃ f', w.faults pid = some f' ∧ access f' = access f)
    (Regular cfg mcfg limit) (fun _ _ _ hi hr ht => act_resuming valid hi hr ht)
    (fun _ _ _ hi hp hr ht => act_waits valid hi hr ht hp) actions w u hw hwaits hg h

/-- Where the machine stops no process waits, but for one that a null pointer keeps waiting. -/
theorem halted_waits (valid : ValidConfig mcfg) (hu : Resuming cfg mcfg limit u)
    (hroom : Resourced mcfg u .attendKernel) (hhalted : Halted cfg mcfg u)
    (hstuck : ¬Stuck cfg mcfg u) (hdevice : ¬Unconfigured cfg u.system) : ¬Waits u pid f := by
  have hkept := hu.paid.kept
  have hstill := (still_of_halted valid hu.paid.coherent hroom hhalted).resolve_left hstuck
  have hjam : ¬Jammed u.system := (not_jammed_iff u.system).mpr hu.handshake
  have hcrash : ¬Crashed cfg u.system := fun ⟨dispatch, pcb, hthread, hkeep, hnone⟩ =>
    hstuck ⟨dispatch, pcb, hthread, hkeep, fun value times => hnone _⟩
  have hforgotten : ¬Forgotten cfg u.system := by
    rintro ⟨-, hqueues, hready, hthread⟩
    have hdispatch := ((still_dispatch hkept hstill hjam).resolve_right hdevice).1
    have htokens := hu.tokens
    rw [TokensMatch, hready, hthread, still_owed hkept hstill hdispatch] at htokens
    simp only [KernelLedger.taken, Nat.cast_zero, add_zero, Nat.cast_eq_zero] at htokens
    exact hqueues (List.length_eq_zero_iff.mp htokens)
  have hrest := still_resting hkept hstill hjam hdevice hcrash hforgotten
  rintro ⟨hplace | hplace, -⟩
  · exact count_of_place hplace (by simp [countAt, hrest.pageFault])
  · exact count_of_place hplace (by simp [countAt, hrest.ready])

end Runs

/-- The processes that are put in READY and the ones that are taken from it. -/
def enters (cfg : KernelConfig) (w : Machine) : Action → List Pcb
  | .thread e => ofQueue .ready (made cfg w.system e)
  | _ => []

def leaves (cfg : KernelConfig) (w : Machine) : Action → List Pcb
  | .thread e => ofQueue .ready (chosen cfg w.system e)
  | _ => []

section Turns
variable {cfg : KernelConfig} {mcfg : MemoryConfig} {limit : ℕ} {w w' u : Machine} {a : Action}
  {actions : List Action} {pcb : Pcb} {f : Fault} {s t : System}

theorem act_ready_queue (h : act cfg mcfg w a = some w') :
    w.system.listReady++enters cfg w a = leaves cfg w a++w'.system.listReady := by
  rcases act_cases h with ⟨e, t, rfl, -, ht, rfl⟩ | ⟨_, _, _, _, rfl, -, -, rfl⟩ |
    ⟨_, _, _, rfl, -, rfl⟩ | ⟨value, times, t, rfl, ht, rfl⟩
  · exact step_queue ht .ready
  · exact List.append_nil _
  · exact List.append_nil _
  · exact step_queue (e := .processDispatch _) ht .ready

/-- But under FEEDBACK all processes are taken from READY. -/
theorem chosen_ready (hs : Kept cfg s) (halg : cfg.algoritmoPlanificacion ≠ .feedback) (e : Event) :
    (chosen cfg s e).length = (ofQueue .ready (chosen cfg s e)).length := by
  have hqueues := hs.sections.queues
  cases e with
  | scheduleNextToRunning =>
    cases hthread : s.shortTermScheduler with
    | choose =>
      have htarget : target cfg = .ready := by
        cases h : cfg.algoritmoPlanificacion <;> simp_all [target]
      cases hq : s.listReady <;> simp [chosen, hthread, htarget, headOf, queueOf, ofQueue, hq]
    | chooseFifo =>
      have hnone : s.listReadyFifo = [] := by
        cases h : cfg.algoritmoPlanificacion <;> simp_all [SharedSections.Queues]
      simp [chosen, hthread, headOf, queueOf, ofQueue, hnone]
    | _ => simp [chosen, hthread, ofQueue]
  | _ => simp [chosen, ofQueue]

theorem act_quanta (hw : Kept cfg w.system) (halg : cfg.algoritmoPlanificacion ≠ .feedback)
    (h : act cfg mcfg w a = some w') :
    quanta w'.system+expiresAction w a ≤ quanta w.system+(leaves cfg w a).length := by
  rcases act_cases h with ⟨e, t, rfl, -, ht, rfl⟩ | ⟨_, _, _, _, rfl, -, -, rfl⟩ |
    ⟨_, _, _, rfl, -, rfl⟩ | ⟨value, times, t, rfl, ht, rfl⟩
  · have := step_quanta ht
    rwa [chosen_ready hw halg] at this
  · exact le_of_eq rfl
  · exact le_of_eq rfl
  · have := step_quanta (e := .processDispatch _) ht
    simpa [expiresAction, leaves, chosen, KernelWork.expires] using this

theorem quanta_nonneg (s : System) : 0 ≤ quanta s := by
  have harmed : 0 ≤ armed s.switcherClock := by
    unfold armed
    split <;> simp
  have htiming : 0 ≤ timing s.shortTermScheduler := by
    unfold timing
    split <;> simp
  unfold quanta
  omega

/-- The process that is taken is on its way to the CPU. -/
theorem chosen_cpu {e : Event} (h : step cfg s e = some t) (hs : Sound cfg s)
    (hchosen : pcb ∈ ofQueue .ready (chosen cfg s e)) : placeOf t pcb.processId = some .cpu := by
  cases e with
  | scheduleNextToRunning =>
    obtain ⟨entry, hentry, hpcb⟩ := List.mem_flatMap.mp hchosen
    obtain rfl : pcb = entry.2 := by
      split at hpcb
      · exact List.mem_singleton.mp hpcb
      · simp at hpcb
    have hway := schedule_next_to_running_way h
    have hmem : identity entry.2 ∈ (onTheWay t).map identity := by
      rw [← hway]
      exact List.mem_append_right _ (List.mem_map.mpr ⟨entry, hentry, rfl⟩)
    obtain ⟨q, hq, hsame⟩ := List.mem_map.mp hmem
    have hcpu : q ∈ processesAt t .cpu := by
      simp only [onTheWay, List.mem_append] at hq
      simp only [processesAt, List.mem_append]
      tauto
    have hplace := place_of_mem (step_sound hs h) hcpu
    rwa [show q.processId = entry.2.processId from congrArg Prod.fst hsame] at hplace
  | _ => simp [chosen, ofQueue] at hchosen

/-- A process in READY is given the CPU when the ones before it have been taken. -/
theorem dispatched_in_turn (valid : ValidConfig mcfg) (hw : Resuming cfg mcfg limit w) {k : ℕ}
    (hk : w.system.listReady[k]? = some pcb) (hf : w.faults pcb.processId = some f)
    (hg : Guarded (act cfg mcfg) (Regular cfg mcfg limit) w actions)
    (h : run (act cfg mcfg) w actions = some u)
    (hturn : k < (collected (act cfg mcfg) (leaves cfg) w actions).length) :
    DispatchedAgain cfg mcfg w actions pcb.processId f := by
  have hqueue := collected_queue (act cfg mcfg) (fun _ => True) (fun w => w.system.listReady)
    (enters cfg) (leaves cfg) (fun _ _ _ _ _ => trivial) (fun _ _ _ _ ht => act_ready_queue ht)
    actions w u trivial h
  have htaken : pcb ∈ collected (act cfg mcfg) (leaves cfg) w actions := by
    have hat := congrArg (·[k]?) hqueue
    simp only [List.getElem?_append_left (List.getElem?_eq_some_iff.mp hk).1,
      List.getElem?_append_left hturn, hk] at hat
    exact List.mem_of_getElem? hat.symm
  obtain ⟨before, b, rest, v, t, rfl, hv, hb, ht⟩ := collected_mem (act cfg mcfg) htaken h
  have hwaits : Waits w pcb.processId f :=
    ⟨Or.inr (place_of_mem hw.paid.coherent.sound (by simp [processesAt, List.mem_of_getElem? hk])),
      f, hf, rfl⟩
  have hsplit : before++b::rest = (before++[b])++rest := by simp
  have hrun : run (act cfg mcfg) w (before++[b]) = some t := by
    rw [run_append, hv, Option.bind_some, run_cons _ _ ht]
    rfl
  rw [hsplit] at hg
  rcases waits_or_dispatched valid hw hwaits (guarded_left _ _ _ hg) hrun with hwaiting |
    ⟨front, back, v', heq, hv', hcpu⟩
  · exfalso
    have hvresuming := run_resuming valid hw (guarded_left _ _ _ (guarded_left _ _ _ hg)) hv
    have hcpu : placeOf t.system pcb.processId = some .cpu := by
      rcases act_cases ht with ⟨e, s, rfl, -, hs, rfl⟩ | ⟨_, _, _, _, rfl, -⟩ |
        ⟨_, _, _, rfl, -⟩ | ⟨_, _, _, rfl, -⟩
      · exact chosen_cpu hs hvresuming.paid.coherent.sound hb
      all_goals simp [leaves] at hb
    simp [Waits, hcpu] at hwaiting
  · exact ⟨front, back++rest, v', by rw [hsplit, heq, List.append_assoc], hv', hcpu⟩

/-- The work of a regular run. -/
theorem regular_work (valid : ValidConfig mcfg) (hw : Resuming cfg mcfg limit w)
    (hg : Guarded (act cfg mcfg) (Regular cfg mcfg limit) w actions)
    (h : run (act cfg mcfg) w actions = some u) :
    tally (act cfg mcfg) (fun _ => countedAction) w actions ≤
      machineWork limit w+(60+70*limit)*tally (act cfg mcfg) (fun _ => connectsAction) w actions+
        39*tally (act cfg mcfg) expiresAction w actions :=
  (run_paid valid hw.paid (guarded_mono _ (fun _ _ hr => hr.1.1) actions w hg)
    (guarded_mono _ (fun _ _ hr => hr.1.2) actions w hg) h).2

/-- A run that goes on for longer than its programs and the place in READY allow has given the
process the CPU. -/
theorem dispatched_in_time (valid : ValidConfig mcfg) (hw : Resuming cfg mcfg limit w) {k : ℕ}
    (hk : w.system.listReady[k]? = some pcb) (hf : w.faults pcb.processId = some f)
    (hg : Guarded (act cfg mcfg) (Regular cfg mcfg limit) w actions)
    (h : run (act cfg mcfg) w actions = some u)
    (hlong : machineWork limit w+
      (60+70*limit)*tally (act cfg mcfg) (fun _ => connectsAction) w actions+
        39*(quanta w.system+k) < tally (act cfg mcfg) (fun _ => countedAction) w actions) :
    DispatchedAgain cfg mcfg w actions pcb.processId f := by
  by_contra hnever
  have hturn : (collected (act cfg mcfg) (leaves cfg) w actions).length ≤ k := by
    by_contra hmore
    exact hnever (dispatched_in_turn valid hw hk hf hg h (by omega))
  have halg : cfg.algoritmoPlanificacion ≠ .feedback := by
    intro halg
    have hqueues := hw.paid.kept.sections.queues
    simp only [SharedSections.Queues, halg] at hqueues
    simp [hqueues] at hk
  have hexpires := tally_paid (act cfg mcfg) (Resuming cfg mcfg limit) (Regular cfg mcfg limit)
    (fun w => quanta w.system) expiresAction (fun w a => ((leaves cfg w a).length : ℤ))
    (fun _ _ _ hi hr ht => act_resuming valid hi hr ht)
    (fun _ _ _ hi _ ht => act_quanta hi.paid.kept halg ht) actions w u hw hg h
  rw [tally_collected _ _ _ h] at hexpires
  have hwork := regular_work valid hw hg h
  have := quanta_nonneg u.system
  omega

end Turns

/-- From a state on, a process whose fault was reported is given the CPU again. `ends` is about
the runs that cannot go on, and `inTime` about those that can, once memory has answered. -/
structure Resumes (cfg : KernelConfig) (mcfg : MemoryConfig) (limit : ℕ) (w : Machine) : Prop where
  ends : ∀ pid f actions u, Waits w pid f →
    Guarded (act cfg mcfg) (Regular cfg mcfg limit) w actions →
    run (act cfg mcfg) w actions = some u → Resourced mcfg u .attendKernel → Halted cfg mcfg u →
    ¬Stuck cfg mcfg u → ¬Unconfigured cfg u.system → DispatchedAgain cfg mcfg w actions pid f
  bounded : ∀ actions u, Guarded (act cfg mcfg) (Regular cfg mcfg limit) w actions →
    run (act cfg mcfg) w actions = some u →
    tally (act cfg mcfg) (fun _ => countedAction) w actions ≤
      machineWork limit w+(60+70*limit)*tally (act cfg mcfg) (fun _ => connectsAction) w actions+
        39*tally (act cfg mcfg) expiresAction w actions
  inTime : ∀ (k : ℕ) pcb f actions u, w.system.listReady[k]? = some pcb →
    w.faults pcb.processId = some f → Guarded (act cfg mcfg) (Regular cfg mcfg limit) w actions →
    run (act cfg mcfg) w actions = some u →
    machineWork limit w+(60+70*limit)*tally (act cfg mcfg) (fun _ => connectsAction) w actions+
      39*(quanta w.system+k) < tally (act cfg mcfg) (fun _ => countedAction) w actions →
    DispatchedAgain cfg mcfg w actions pcb.processId f

theorem resumes {cfg : KernelConfig} {mcfg : MemoryConfig} {limit : ℕ} {w : Machine}
    (valid : ValidConfig mcfg) (hw : Resuming cfg mcfg limit w) : Resumes cfg mcfg limit w where
  ends := by
    intro pid f actions u hwaits hg h hroom hhalted hstuck hdevice
    have hu := run_resuming valid hw hg h
    exact (waits_or_dispatched valid hw hwaits hg h).resolve_left
      (halted_waits valid hu hroom hhalted hstuck hdevice)
  bounded := fun _ _ hg h => regular_work valid hw hg h
  inTime := fun _ _ _ _ _ hk hf hg h hlong => dispatched_in_time valid hw hk hf hg h hlong

/-- Wherever a run gets to in which no answer is enqueued without its token and no handshake is
lost, an instruction has faulted once at most, its process is given the CPU again, and when it
executes it is at that instruction and finds the page in the frame it was loaded into. -/
theorem faults_resumed (cfg : KernelConfig) (mcfg : MemoryConfig) (valid : ValidConfig mcfg)
    (limit : ℕ) (time : TimeVal) (ram swap : ℕ → UInt8) (actions : List Action)
    (hregular : Guarded (act cfg mcfg) (Regular cfg mcfg limit) (start cfg mcfg time ram swap)
      actions) (w : Machine)
    (h : run (act cfg mcfg) (start cfg mcfg time ram swap) actions = some w) :
    OneFault cfg.cpu mcfg w ∧ Resumes cfg mcfg limit w := by
  have hw := run_resuming valid (start_resuming valid limit time ram swap) hregular h
  exact ⟨one_fault valid hw.paid.coherent, resumes valid hw⟩

/-- Nothing can be done where every thread waits, and no thread is at a null pointer. -/
theorem halted_of_idle (cfg : KernelConfig) (mcfg : MemoryConfig) {w : Machine}
    (hclock : ∀ expired, countQuantumOfRoundRobin cfg w.system expired = none)
    (h : Standstill.Idle w.system) : Halted cfg mcfg w ∧ ¬Stuck cfg mcfg w ∧ ¬Unconfigured cfg w.system := by
  have hstill := still_of_idle hclock h
  obtain ⟨⟨hto, -⟩, -, -, ⟨-, hcpu⟩, ⟨-, hdispatch⟩, -⟩ := h
  refine ⟨⟨fun e hthread he => ?_, ?_, fun value times => ?_⟩, ?_, ?_⟩
  · simp [act, hthread, hstill e he]
  · simp [act, hto]
  · have hnone := hstill (.processDispatch (executionAnswers cfg mcfg w value times)) rfl
    simp only [step] at hnone
    simp [act, hnone]
  · rintro ⟨dispatch, pcb, hthread, -⟩
    simp [hcpu] at hthread
  · rintro ⟨pcb, device, parameter, hthread, -⟩
    simp [hdispatch] at hthread

def smallMachine (algorithm : Algorithm) (actions : List Action) : Machine :=
  reached (act (smallKernel algorithm) smallConfig)
    (start (smallKernel algorithm) smallConfig midnight zeros zeros) actions

/-- The process is dispatched, executes to its end and its console is told. -/
def untilTheEnd : List Action :=
  Action.thread .manageMemory::List.replicate 6 (Action.thread .scheduleNextToRunning)++
    List.replicate 6 turn++List.replicate 10 (Action.thread .manageDispatch)++
    [.attendKernel, .thread (.console 0 0)]

theorem faults_resumed_once :
    OneFault (smallKernel .fifo).cpu smallConfig (smallMachine .fifo (answered 6)) ∧
    DispatchedAgain (smallKernel .fifo) smallConfig (smallMachine .fifo (answered 6)) untilTheEnd 1
      ⟨0, 0, 0, some 0, 1⟩ := by
  obtain ⟨hone, hresumes⟩ := faults_resumed (smallKernel .fifo) smallConfig small_config_valid 2
    midnight zeros zeros (answered 6) (by decide +kernel) (smallMachine .fifo (answered 6))
    (run_reached _ _ _ (by decide +kernel))
  obtain ⟨hhalted, hstuck, hdevice⟩ := halted_of_idle (smallKernel .fifo) smallConfig
    (w := reached (act (smallKernel .fifo) smallConfig) (smallMachine .fifo (answered 6)) untilTheEnd)
    (fun _ => rfl) (by decide +kernel)
  exact ⟨hone, hresumes.ends 1 ⟨0, 0, 0, some 0, 1⟩ untilTheEnd _
    ⟨Or.inr (by decide +kernel), ⟨0, 0, 0, some 0, 1⟩, by decide +kernel, rfl⟩ (by decide +kernel)
    (run_reached _ _ _ (by decide +kernel)) (by decide +kernel) hhalted hstuck hdevice⟩

/-- The quantum of the process ends when it has left. -/
def forgotten : List Action :=
  answered 7++List.replicate 8 (Action.thread (.countQuantum false))++
    List.replicate 3 (Action.thread (.countQuantum true))++
    List.replicate 2 (Action.thread .manageInterrupt)

/-- Under FEEDBACK the process is in READY, the CPU is free, and nothing can be done. -/
theorem answer_forgotten :
    Guarded (act (smallKernel .feedback) smallConfig) (Resourced smallConfig)
      (start (smallKernel .feedback) smallConfig midnight zeros zeros) forgotten ∧
    run (act (smallKernel .feedback) smallConfig)
      (start (smallKernel .feedback) smallConfig midnight zeros zeros) forgotten =
      some (smallMachine .feedback forgotten) ∧
    ¬Resumes (smallKernel .feedback) smallConfig 2 (smallMachine .feedback forgotten) := by
  refine ⟨by decide +kernel, run_reached _ _ _ (by decide +kernel), fun hresumes => ?_⟩
  obtain ⟨hhalted, hstuck, hdevice⟩ := halted_of_idle (smallKernel .feedback)
    smallConfig (w := smallMachine .feedback forgotten)
    (by intro expired; cases expired <;> decide +kernel) (by decide +kernel)
  have hready : placeOf (smallMachine .feedback forgotten).system 1 = some .ready := by decide +kernel
  obtain ⟨before, rest, v, hnil, hv, hcpu, -⟩ := hresumes.ends 1 ⟨0, 0, 0, some 0, 1⟩ []
    (smallMachine .feedback forgotten)
    ⟨Or.inr hready, ⟨0, 0, 0, some 0, 1⟩, by decide +kernel, rfl⟩ trivial rfl (by decide +kernel)
    hhalted hstuck hdevice
  obtain ⟨rfl, rfl⟩ := List.append_eq_nil_iff.mp hnil.symm
  obtain rfl := Option.some.inj hv
  simp [hready] at hcpu

end Geck.FaultResumption
