import Geck.CpuProgress
import Geck.KernelSoundness

/-!
# One dispatch at a time, one package for each

The kernel numbers its `EXECUTE_PCB`; the CPU has the next one that was not
replied to, or none. A dispatch is replied to after a number of turns of the CPU
that its program bounds, and the CPU can always take its next turn.
-/

set_option autoImplicit false

namespace Geck.DispatchProtocol
open Geck.LabelledRuns Geck.Tallies Geck.SharedPcb Geck.CpuTranslation Geck.CpuExecution
open Geck.CpuFlags Geck.CpuProgress Geck.KernelState Geck.KernelThreads Geck.KernelFrames
open Geck.KernelLedger Geck.KernelLaws Geck.KernelInvariant Geck.KernelSoundness

def serving : CpuThread → List Dispatch
  | .receive => []
  | .running dispatch _ => [dispatch]
  | .leaving dispatch _ => [dispatch]
  | .sending reply => [reply.dispatch]

/-- The dispatches without a reply. -/
def pending (s : System) : List Dispatch := serving s.cpuThread++s.toCpu.map Prod.fst

/-- The instructions from the program counter on. -/
def remaining (pcb : Pcb) : ℕ := (pcb.instructions.length-pcb.programCounter).toNat

/-- A bound of the turns that the CPU needs to reply to the dispatch it has or takes next. -/
def turns (s : System) : ℕ :=
  match s.cpuThread with
  | .receive =>
    match s.toCpu with
    | [] => 0
    | (_, pcb)::_ => remaining pcb+5
  | .running _ pcb => if keepsRunning s.cpu then remaining pcb+4 else 3
  | .leaving _ _ => 2
  | .sending _ => 1

def isTurn : Event → Bool
  | .processDispatch _ => true
  | _ => false

/-- An instruction that is about to run is well formed and memory answers it. -/
def LegalTurn (cfg : KernelConfig) (s : System) (answers : Answers) : Prop :=
  ∀ dispatch pcb, s.cpuThread = .running dispatch pcb → keepsRunning s.cpu = true →
    Executable cfg.cpu pcb ∧ Answered answers

structure Ordered (s : System) : Prop where
  sent : s.sent = s.replies+(pending s).length
  next : ∀ dispatch ∈ pending s, dispatch.number = s.replies
  replied : ∀ reply ∈ s.fromCpu, reply.dispatch.number+1 = s.replies

/-- The protocol between the kernel and the CPU. -/
structure Protocol (cfg : KernelConfig) (s : System) : Prop where
  one : outstanding s ≤ 1
  ordered : Ordered s
  clear : (s.cpuThread = .receive ∨ ∃ reply, s.cpuThread = .sending reply) → Clear s.cpu
  package : ∀ dispatch pcb, s.cpuThread = .leaving dispatch pcb →
    ∃ cpu package, leaveProcess s.cpu pcb = (cpu, some package)
  choose : s.shortTermScheduler = .choose → readyQueues cfg s ≠ []
  chooseFifo : s.shortTermScheduler = .chooseFifo → s.listReadyFifo ≠ []
  proceeds : ∀ answers, 0 < turns s → LegalTurn cfg s answers →
    ∃ t, step cfg s (.processDispatch answers) = some t
  replies : ∀ es t, 0 < turns s → run (step cfg) s es = some t →
    turns s ≤ es.countP isTurn → s.replies < t.replies

structure Dispatched (cfg : KernelConfig) (s : System) : Prop where
  sound : Sound cfg s
  ordered : Ordered s
  tlb : cfg.cpu.entradasTlb ≤ s.cpu.tlb.length

section Steps
variable {cfg : KernelConfig} {s t : System}

theorem dispatched_of_same (hs : Dispatched cfg s) (hsound : Sound cfg t) (hcpu : t.cpu = s.cpu)
    (hthread : t.cpuThread = s.cpuThread) (hto : t.toCpu = s.toCpu) (hfrom : t.fromCpu ⊆ s.fromCpu)
    (hsent : t.sent = s.sent) (hreplies : t.replies = s.replies) : Dispatched cfg t where
  sound := hsound
  ordered := by
    have hpending : pending t = pending s := by rw [pending, pending, hthread, hto]
    refine ⟨?_, ?_, fun reply hreply => ?_⟩
    · rw [hsent, hreplies, hpending, hs.ordered.sent]
    · rw [hreplies, hpending]
      exact hs.ordered.next
    · rw [hreplies]
      exact hs.ordered.replied reply (hfrom hreply)
  tlb := hcpu ▸ hs.tlb

theorem schedule_next_to_running_dispatched (hs : Dispatched cfg s) (hsound : Sound cfg t)
    (h : scheduleNextToRunning cfg s = some t) : Dispatched cfg t := by
  cases hthread : s.shortTermScheduler with
  | send pcb timed =>
    obtain ⟨hto, hcpu, hfrom⟩ := holds_cpu_idle hs.sound.balanced (by simp [hthread])
    have hsent : s.sent = s.replies := by
      have := hs.ordered.sent
      simpa [pending, serving, hcpu, hto] using this
    simp only [scheduleNextToRunning, hthread, Option.some.injEq] at h
    subst h
    refine ⟨hsound, ⟨?_, ?_, ?_⟩, hs.tlb⟩
    · simp [pending, serving, hcpu, hto, hsent]
    · simp [pending, serving, hcpu, hto, hsent]
    · simp [hfrom]
  | _ =>
    simp only [scheduleNextToRunning, hthread] at h
    repeat' split at h
    all_goals simp only [Option.some.injEq, reduceCtorEq] at h
    all_goals subst h
    all_goals exact dispatched_of_same hs hsound rfl rfl rfl (List.Subset.refl _) rfl rfl

theorem process_dispatch_dispatched (hsort : Sorts cfg.cpu) {answers : Answers}
    (hs : Dispatched cfg s) (hsound : Sound cfg t) (h : processDispatch cfg s answers = some t) :
    Dispatched cfg t := by
  obtain ⟨hsent, hnext, hreplied⟩ := hs.ordered
  cases hthread : s.cpuThread with
  | receive =>
    cases hq : s.toCpu with
    | nil => simp [processDispatch, hthread, hq] at h
    | cons sent rest =>
      simp only [processDispatch, hthread, hq, Option.some.injEq] at h
      simp only [pending, serving, hthread, hq, List.nil_append, List.map_cons] at hsent hnext
      subst h
      exact ⟨hsound, ⟨hsent, hnext, hreplied⟩, hs.tlb⟩
  | running dispatch pcb =>
    simp only [pending, serving, hthread] at hsent hnext
    simp only [processDispatch, hthread] at h
    split at h
    · simp only [Option.bind_eq_bind, Option.bind_eq_some_iff, Option.some.injEq] at h
      obtain ⟨⟨cpu, pcb', made⟩, hcycle, rfl⟩ := h
      exact ⟨hsound, ⟨hsent, hnext, hreplied⟩, instruction_cycle_enough hsort hs.tlb hcycle⟩
    · simp only [Option.some.injEq] at h
      subst h
      exact ⟨hsound, ⟨hsent, hnext, hreplied⟩, hs.tlb⟩
  | leaving dispatch pcb =>
    simp only [pending, serving, hthread] at hsent hnext
    obtain ⟨cpu, package, hpackage, -⟩ := leaving_flags hs.sound.flags hthread
    have htlb := leave_process_tlb s.cpu pcb
    rw [hpackage] at htlb
    simp only [processDispatch, hthread, hpackage, Option.some.injEq] at h
    subst h
    exact ⟨hsound, ⟨hsent, hnext, hreplied⟩, htlb ▸ hs.tlb⟩
  | sending reply =>
    simp only [pending, serving, hthread] at hsent hnext
    obtain ⟨hto, hfrom⟩ := busy_alone hs.sound.balanced (by simp [hthread])
    simp only [processDispatch, hthread, Option.some.injEq] at h
    subst h
    refine ⟨hsound, ⟨?_, ?_, ?_⟩, hs.tlb⟩
    · simp only [hto, List.map_nil, List.append_nil, List.length_singleton] at hsent
      simp [pending, serving, hto, hsent]
    · simp [pending, serving, hto]
    · simp [hfrom, hnext]

theorem dispatched_of_undisturbed (hs : Dispatched cfg s) (hsound : Sound cfg t)
    (h : Undisturbed s t) : Dispatched cfg t :=
  dispatched_of_same hs hsound h.cpu h.cpuThread h.toCpu h.fromCpu h.sent h.replies

theorem step_dispatched (hsort : Sorts cfg.cpu) {e : Event} (hs : Dispatched cfg s)
    (h : step cfg s e = some t) : Dispatched cfg t := by
  have hsound := step_sound hs.sound h
  cases e with
  | scheduleNextToRunning => exact schedule_next_to_running_dispatched hs hsound h
  | processDispatch answers => exact process_dispatch_dispatched hsort hs hsound h
  | manageInterrupt =>
    obtain ⟨_, _, _, _, rfl⟩ := manage_interrupt_frame h
    exact dispatched_of_same hs hsound rfl rfl rfl (List.Subset.refl _) rfl rfl
  | countQuantum expired =>
    obtain ⟨_, _, _, _, _, _, rfl⟩ := count_quantum_frame h
    exact dispatched_of_same hs hsound rfl rfl rfl (List.Subset.refl _) rfl rfl
  | processInterrupt =>
    obtain ⟨_, _, -, rfl⟩ := process_interrupt_cases h
    exact ⟨hsound, ⟨hs.ordered.sent, hs.ordered.next, hs.ordered.replied⟩, hs.tlb⟩
  | _ => exact dispatched_of_undisturbed hs hsound (distant_undisturbed rfl h)

/-- A turn of the CPU sends the reply or brings it one turn nearer. -/
theorem process_dispatch_turns {answers : Answers} (hs : Sound cfg s)
    (h : processDispatch cfg s answers = some t) :
    t.replies = s.replies+1 ∨ (t.replies = s.replies ∧ 0 < turns t ∧ turns t+1 ≤ turns s) := by
  cases hthread : s.cpuThread with
  | receive =>
    cases hq : s.toCpu with
    | nil => simp [processDispatch, hthread, hq] at h
    | cons sent rest =>
      simp only [processDispatch, hthread, hq, Option.some.injEq] at h
      subst h
      refine Or.inr ⟨rfl, ?_⟩
      simp only [turns, hthread, hq]
      split <;> omega
  | running dispatch pcb =>
    simp only [processDispatch, hthread] at h
    split at h
    next hkeep =>
      simp only [Option.bind_eq_bind, Option.bind_eq_some_iff, Option.some.injEq] at h
      obtain ⟨⟨cpu, pcb', made⟩, hcycle, rfl⟩ := h
      obtain ⟨hlist, hinside, hcounter⟩ := instruction_cycle_counter hcycle
      refine Or.inr ⟨rfl, ?_⟩
      simp only [turns, hthread, hkeep, if_true, remaining, hlist]
      split
      next hkeep' =>
        have hfault := (clear_of_running hkeep').2
        rw [hcounter.resolve_left (by simp [hfault])]
        omega
      next => omega
    next hleave =>
      simp only [Option.some.injEq] at h
      subst h
      refine Or.inr ⟨rfl, ?_⟩
      simp [turns, hthread, hleave]
  | leaving dispatch pcb =>
    obtain ⟨cpu, package, hpackage, -⟩ := leaving_flags hs.flags hthread
    simp only [processDispatch, hthread, hpackage, Option.some.injEq] at h
    subst h
    exact Or.inr ⟨rfl, by simp [turns, hthread]⟩
  | sending reply =>
    simp only [processDispatch, hthread, Option.some.injEq] at h
    subst h
    exact Or.inl rfl

theorem turns_of_same (hcpu : t.cpu = s.cpu) (hthread : t.cpuThread = s.cpuThread)
    (hto : t.toCpu = s.toCpu) : turns t = turns s := by
  rw [turns, turns, hcpu, hthread, hto]

/-- The interruption can only shorten the run of the process. -/
theorem process_interrupt_turns (hpos : 0 < turns s) (h : processInterrupt s = some t) :
    0 < turns t ∧ turns t ≤ turns s := by
  obtain ⟨_, _, -, rfl⟩ := process_interrupt_cases h
  cases hthread : s.cpuThread with
  | running dispatch pcb =>
    have hstop : keepsRunning { s.cpu with checkInterruption := true } = false := by
      simp [keepsRunning]
    simp only [turns, hthread, hstop, Bool.false_eq_true, if_false]
    refine ⟨by omega, ?_⟩
    split <;> omega
  | _ =>
    simp only [turns, hthread] at hpos ⊢
    exact ⟨hpos, le_rfl⟩

theorem schedule_next_to_running_turns (hs : Sound cfg s) (hpos : 0 < turns s)
    (h : scheduleNextToRunning cfg s = some t) : t.replies = s.replies ∧ turns t = turns s := by
  cases hthread : s.shortTermScheduler with
  | send pcb timed =>
    obtain ⟨hto, hcpu, -⟩ := holds_cpu_idle hs.balanced (by simp [hthread])
    simp [turns, hcpu, hto] at hpos
  | _ =>
    simp only [scheduleNextToRunning, hthread] at h
    repeat' split at h
    all_goals simp only [Option.some.injEq, reduceCtorEq] at h
    all_goals subst h
    all_goals exact ⟨rfl, turns_of_same rfl rfl rfl⟩

/-- No other thread delays a reply. -/
theorem other_turns {e : Event} (he : isTurn e = false) (hs : Sound cfg s)
    (h : step cfg s e = some t) (hpos : 0 < turns s) :
    t.replies = s.replies ∧ 0 < turns t ∧ turns t ≤ turns s := by
  cases e with
  | processDispatch answers => simp [isTurn] at he
  | scheduleNextToRunning =>
    obtain ⟨hreplies, hturns⟩ := schedule_next_to_running_turns hs hpos h
    exact ⟨hreplies, hturns ▸ hpos, hturns.le⟩
  | processInterrupt =>
    have hturns := process_interrupt_turns hpos h
    obtain ⟨_, _, -, rfl⟩ := process_interrupt_cases h
    exact ⟨rfl, hturns⟩
  | manageInterrupt =>
    obtain ⟨_, _, _, _, rfl⟩ := manage_interrupt_frame h
    exact ⟨rfl, hpos, le_rfl⟩
  | countQuantum expired =>
    obtain ⟨_, _, _, _, _, _, rfl⟩ := count_quantum_frame h
    exact ⟨rfl, hpos, le_rfl⟩
  | _ =>
    have hsame := distant_undisturbed rfl h
    have hturns := turns_of_same hsame.cpu hsame.cpuThread hsame.toCpu
    exact ⟨hsame.replies, hturns ▸ hpos, hturns.le⟩

theorem turn_proceeds {answers : Answers} (hs : Dispatched cfg s) (hpos : 0 < turns s)
    (hlegal : LegalTurn cfg s answers) : ∃ t, step cfg s (.processDispatch answers) = some t := by
  cases hthread : s.cpuThread with
  | receive =>
    cases hq : s.toCpu with
    | nil => simp [turns, hthread, hq] at hpos
    | cons sent rest => simp [step, processDispatch, hthread, hq]
  | running dispatch pcb =>
    cases hkeep : keepsRunning s.cpu with
    | false => simp [step, processDispatch, hthread, hkeep]
    | true =>
      obtain ⟨hexec, hanswered⟩ := hlegal dispatch pcb hthread hkeep
      obtain ⟨⟨cpu, pcb', made⟩, hcycle⟩ :=
        instruction_cycle_proceeds hexec hs.tlb hanswered
      simp [step, processDispatch, hthread, hkeep, hcycle]
  | leaving dispatch pcb =>
    obtain ⟨cpu, package, hpackage, -⟩ := leaving_flags hs.sound.flags hthread
    simp [step, processDispatch, hthread, hpackage]
  | sending reply => simp [step, processDispatch, hthread]

theorem step_replies {e : Event} (hs : Sound cfg s) (h : step cfg s e = some t) :
    s.replies ≤ t.replies := by
  cases e with
  | processDispatch answers =>
    rcases process_dispatch_turns hs h with hsent | ⟨hsame, -⟩
    · omega
    · exact hsame.ge
  | scheduleNextToRunning =>
    obtain ⟨_, _, _, _, _, _, _, _, _, _, _, rfl⟩ := schedule_next_to_running_frame h
    exact le_rfl
  | processInterrupt =>
    obtain ⟨_, _, -, rfl⟩ := process_interrupt_cases h
    exact le_rfl
  | manageInterrupt =>
    obtain ⟨_, _, _, _, rfl⟩ := manage_interrupt_frame h
    exact le_rfl
  | countQuantum expired =>
    obtain ⟨_, _, _, _, _, _, rfl⟩ := count_quantum_frame h
    exact le_rfl
  | _ => exact (distant_undisturbed rfl h).replies.ge

/-- The reply is sent once the CPU has had its turns, whatever else happens between them. -/
theorem replies_within {es : List Event} (hs : Sound cfg s) (hpos : 0 < turns s)
    (hr : run (step cfg) s es = some t) (hcount : turns s ≤ es.countP isTurn) :
    s.replies < t.replies := by
  apply happens_within (step cfg) (Sound cfg) (fun u => 0 < turns u ∧ u.replies = s.replies)
    (fun u => s.replies < u.replies) turns isTurn (fun _ _ _ hu h => step_sound hu h) _
    (fun _ _ _ hu hq h => hq.trans_le (step_replies hu h)) (fun _ h => h.1) es s t hs ⟨hpos, rfl⟩ hr
    hcount
  intro u e v hu hp h
  cases he : isTurn e with
  | false =>
    obtain ⟨hreplies, hv, hle⟩ := other_turns he hu h hp.1
    exact Or.inr ⟨⟨hv, hreplies.trans hp.2⟩, by simpa using hle⟩
  | true =>
    cases e with
    | processDispatch answers =>
      rcases process_dispatch_turns hu h with hsent | ⟨hsame, hv, hless⟩
      · left
        omega
      · exact Or.inr ⟨⟨hv, hsame.trans hp.2⟩, by simpa using hless⟩
    | _ => simp [isTurn] at he

theorem outstanding_le (hb : Balanced cfg s) : outstanding s ≤ 1 := by
  have hcpu := hb.cpu
  have hholds : 0 ≤ holdsCpu s.shortTermScheduler := by cases s.shortTermScheduler <;> simp
  unfold cpuTokens at hcpu
  omega

theorem protocol_of_dispatched (hs : Dispatched cfg s) : Protocol cfg s where
  one := outstanding_le hs.sound.balanced
  ordered := hs.ordered
  clear := by
    have hflags := hs.sound.flags
    rintro (hthread | ⟨reply, hthread⟩)
    · simpa only [Flags, hthread] using hflags
    · simpa only [Flags, hthread] using hflags
  package := fun dispatch pcb hthread => by
    obtain ⟨cpu, package, hpackage, -⟩ := leaving_flags hs.sound.flags hthread
    exact ⟨cpu, package, hpackage⟩
  choose := fun hthread => ready_not_empty hs.sound.balanced (by simp [hthread])
  chooseFifo := fun hthread => (hs.sound.chooses hthread).2
  proceeds := fun _ hpos hlegal => turn_proceeds hs hpos hlegal
  replies := fun _ _ hpos hr hcount => replies_within hs.sound hpos hr hcount

end Steps

theorem boot_dispatched (cfg : KernelConfig) (time : TimeVal) : Dispatched cfg (boot cfg time) where
  sound := boot_sound cfg time
  ordered := ⟨by simp [boot, pending, serving], by simp [boot, pending, serving], by simp [boot]⟩
  tlb := by simp [boot, initCpu, initTlb]

end Geck.DispatchProtocol
