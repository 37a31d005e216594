import Geck.KernelSoundness

/-!
# The sections that the threads of the kernel share

A lock or a queue that a thread finds is accounted for by what other threads
have in progress: a closed mutex by the thread inside, an empty queue by the
algorithm, a variable not yet written by a dispatch not yet sent.
-/

set_option autoImplicit false

namespace Geck.SharedSections
open Geck.LabelledRuns Geck.Tallies Geck.SharedPcb Geck.MemoryHandlers Geck.CpuTranslation
open Geck.CpuExecution Geck.KernelState Geck.KernelThreads Geck.KernelFrames Geck.KernelLedger
open Geck.KernelInvariant Geck.KernelSoundness

/-- Between a lock of `m_out_of_running` and its unlock. -/
def clockInside : SwitcherClock → Bool
  | .startReset => true
  | .startUnlock => true
  | .test _ => true
  | .waitFinish => true
  | .unlock _ => true
  | _ => false

def dispatchInside : ThreadDispatch → Bool
  | .setFlag _ => true
  | .unlockOut _ => true
  | _ => false

def faultSent : PageFaultThread → ℤ
  | .send _ _ _ => 1
  | _ => 0

attribute [simp] faultSent.eq_1 faultSent.eq_2

def faultClosing : ThreadMemory → ℤ
  | .addReady _ => 1
  | .postReady => 1
  | .unlockPageFault => 1
  | _ => 0

attribute [simp] faultClosing.eq_1 faultClosing.eq_2 faultClosing.eq_3 faultClosing.eq_4

/-- The page faults between the lock of `m_resolve_page_fault` and its unlock. -/
def inService (s : System) : ℤ :=
  total faultSent s.pageFaultThreads+(s.toMemory.flatMap faultRequested).length+
    (s.fromMemory.flatMap faultAnswered).length+faultClosing s.threadMemory

/-- No process is on its way to the CPU, on it or on its way back. -/
def Unsent (s : System) : Prop :=
  s.toCpu = [] ∧ s.cpuThread = .receive ∧ s.fromCpu = [] ∧ s.threadDispatch = .receive

/-- `ultimo` is still to be written after the first process was sent. -/
def writesUltimo : ShortTermScheduler → Bool
  | .postBeggin _ => true
  | .setUltimo _ => true
  | _ => false

/-- The device `manage_dispatch` is adding a process to. -/
def attaching : ThreadDispatch → Option ℕ
  | .addProcess _ i => some i
  | .postDevice i => some i
  | _ => none

/-- Only the queues of the algorithm are used. -/
def Queues (cfg : KernelConfig) (s : System) : Prop :=
  match cfg.algoritmoPlanificacion with
  | .feedback => s.listReady = []
  | _ => s.listReadyRr = [] ∧ s.listReadyFifo = []

structure Sections (cfg : KernelConfig) (s : System) : Prop where
  out : s.mOutOfRunning = true →
    clockInside s.switcherClock = true ∨ dispatchInside s.threadDispatch = true
  clock : cfg.algoritmoPlanificacion = .fifo → s.switcherClock = .startLock
  service : inService s = if s.mResolvePageFault then 1 else 0
  queues : Queues cfg s
  ultimo : s.ultimo = none → s.sent = 0 ∨ writesUltimo s.shortTermScheduler = true
  unsent : s.sent = 0 → Unsent s
  attached : ∀ i, attaching s.threadDispatch = some i → i < s.devices.length
  tokens : cfg.algoritmoPlanificacion ≠ .feedback → stranded cfg s = 0

section Steps
variable {cfg : KernelConfig} {s t : System}

theorem add_to_ready_queues (hs : Queues cfg s) (pcb : Pcb) : Queues cfg (addToReady cfg s pcb) := by
  cases halg : cfg.algoritmoPlanificacion
  all_goals simpa [Queues, addToReady, halg] using hs

theorem receive_console_queues {i : ℕ} {c : Console} (hs : Queues cfg s)
    (h : receiveConsole cfg s i c = some t) : Queues cfg t := by
  unfold receiveConsole scheduleNextToReady at h
  repeat' split at h
  all_goals simp only [Option.some.injEq, reduceCtorEq] at h
  all_goals subst h
  all_goals first
    | exact hs
    | exact add_to_ready_queues hs _

/-- The scheduler only removes from the queues. -/
theorem schedule_next_to_running_suffix (h : scheduleNextToRunning cfg s = some t) :
    t.listReady <:+ s.listReady ∧ t.listReadyRr <:+ s.listReadyRr ∧
      t.listReadyFifo <:+ s.listReadyFifo := by
  unfold scheduleNextToRunning at h
  repeat' split at h
  all_goals simp only [Option.some.injEq, reduceCtorEq] at h
  all_goals subst h
  all_goals simp_all

theorem schedule_next_to_running_queues (hs : Queues cfg s)
    (h : scheduleNextToRunning cfg s = some t) : Queues cfg t := by
  obtain ⟨hready, hrr, hfifo⟩ := schedule_next_to_running_suffix h
  cases halg : cfg.algoritmoPlanificacion with
  | feedback =>
    simp only [Queues, halg] at hs ⊢
    exact List.suffix_nil.mp (hs ▸ hready)
  | fifo | rr =>
    simp only [Queues, halg] at hs ⊢
    exact ⟨List.suffix_nil.mp (hs.1 ▸ hrr), List.suffix_nil.mp (hs.2 ▸ hfifo)⟩

theorem manage_dispatch_queues (hs : Queues cfg s) (h : manageDispatch cfg s = some t) :
    Queues cfg t := by
  unfold manageDispatch sendToConsole at h
  repeat' split at h
  all_goals simp only [Option.some.injEq, reduceCtorEq] at h
  all_goals subst h
  all_goals first
    | exact hs
    | simpa [Queues, *] using hs

theorem manage_memory_queues (hs : Queues cfg s) (h : manageMemory cfg s = some t) :
    Queues cfg t := by
  unfold manageMemory at h
  repeat' split at h
  all_goals simp only [Option.some.injEq, reduceCtorEq] at h
  all_goals subst h
  all_goals first
    | exact hs
    | exact add_to_ready_queues hs _

theorem simulate_io_default_queues {i : ℕ} {d : Device} (hs : Queues cfg s)
    (h : simulateIoDefault cfg s i d = some t) : Queues cfg t := by
  unfold simulateIoDefault at h
  repeat' split at h
  all_goals simp only [Option.some.injEq, reduceCtorEq] at h
  all_goals subst h
  all_goals first
    | exact hs
    | exact add_to_ready_queues hs _

theorem simulate_io_default_length {i : ℕ} {d : Device} (h : simulateIoDefault cfg s i d = some t) :
    t.devices.length = s.devices.length := by
  unfold simulateIoDefault addToReady at h
  repeat' split at h
  all_goals simp only [Option.some.injEq, reduceCtorEq] at h
  all_goals subst h
  all_goals simp [System.setDevice]

theorem receive_console_requests {i : ℕ} {c : Console} (h : receiveConsole cfg s i c = some t) :
    t.toMemory.flatMap faultRequested = s.toMemory.flatMap faultRequested := by
  unfold receiveConsole scheduleNextToReady addToReady at h
  repeat' split at h
  all_goals simp only [Option.some.injEq, reduceCtorEq] at h
  all_goals subst h
  all_goals simp [System.setConsole]

theorem schedule_next_to_running_ultimo (hs : Sections cfg s)
    (h : scheduleNextToRunning cfg s = some t) :
    (t.ultimo = none → t.sent = 0 ∨ writesUltimo t.shortTermScheduler = true) ∧
      (t.sent = 0 → Unsent t) := by
  cases hthread : s.shortTermScheduler with
  | send pcb timed =>
    simp only [scheduleNextToRunning, hthread, Option.some.injEq] at h
    subst h
    refine ⟨fun _ => Or.inr ?_, fun h0 => absurd h0 (Nat.succ_ne_zero _)⟩
    cases timed <;> rfl
  | postBeggin dispatch =>
    simp only [scheduleNextToRunning, hthread, Option.some.injEq] at h
    subst h
    exact ⟨fun _ => Or.inr rfl, hs.unsent⟩
  | setUltimo timed =>
    simp only [scheduleNextToRunning, hthread, Option.some.injEq] at h
    subst h
    exact ⟨fun hnone => by simp at hnone, hs.unsent⟩
  | _ =>
    simp only [scheduleNextToRunning, hthread] at h
    repeat' split at h
    all_goals simp only [Option.some.injEq, reduceCtorEq] at h
    all_goals subst h
    all_goals refine ⟨fun hnone => Or.inl ?_, hs.unsent⟩
    all_goals simpa [hthread, writesUltimo] using hs.ultimo hnone

theorem manage_dispatch_out (hs : Sections cfg s) (h : manageDispatch cfg s = some t)
    (hlocked : t.mOutOfRunning = true) :
    clockInside t.switcherClock = true ∨ dispatchInside t.threadDispatch = true := by
  have hout := hs.out
  unfold manageDispatch sendToConsole at h
  repeat' split at h
  all_goals simp only [Option.some.injEq, reduceCtorEq] at h
  all_goals subst h
  all_goals first
    | exact Or.inr rfl
    | exact absurd hlocked Bool.false_ne_true
    | exact (hout hlocked).imp_right fun hinside => by simp_all [dispatchInside]

theorem count_quantum_out {expired : Bool} (hs : Sections cfg s)
    (h : countQuantumOfRoundRobin cfg s expired = some t) (hlocked : t.mOutOfRunning = true) :
    clockInside t.switcherClock = true ∨ dispatchInside t.threadDispatch = true := by
  have hout := hs.out
  unfold countQuantumOfRoundRobin at h
  repeat' split at h
  all_goals simp only [Option.some.injEq, reduceCtorEq] at h
  all_goals subst h
  all_goals first
    | exact Or.inl rfl
    | exact absurd hlocked Bool.false_ne_true
    | exact (hout hlocked).imp_left fun hinside => by simp_all [clockInside]

theorem manage_dispatch_service (h : manageDispatch cfg s = some t) : inService t = inService s := by
  unfold manageDispatch sendToConsole at h
  repeat' split at h
  all_goals simp only [Option.some.injEq, reduceCtorEq] at h
  all_goals subst h
  all_goals simp [inService, System.setDevice, System.setConsole]

theorem manage_dispatch_attached (hs : Sections cfg s) (h : manageDispatch cfg s = some t) {i : ℕ}
    (hi : attaching t.threadDispatch = some i) : i < t.devices.length := by
  have hattached := hs.attached
  cases hthread : s.threadDispatch with
  | addTime pcb device parameter =>
    obtain ⟨j, d, -, hd, rfl⟩ := add_time_some hthread h
    obtain rfl : j = i := by simpa [attaching] using hi
    simpa [System.setDevice] using (List.getElem?_eq_some_iff.mp hd).1
  | addProcess pcb j =>
    obtain ⟨d, hd, rfl⟩ := add_process_some hthread h
    obtain rfl : j = i := by simpa [attaching] using hi
    simpa [System.setDevice] using (List.getElem?_eq_some_iff.mp hd).1
  | postDevice j =>
    obtain ⟨d, hd, rfl⟩ := post_device_some hthread h
    simp [attaching] at hi
  | postFree package =>
    simp only [manageDispatch, hthread, Option.some.injEq] at h
    subst h
    cases package <;> simp [afterFree, attaching] at hi
  | unlockOut package =>
    simp only [manageDispatch, hthread, Option.some.injEq] at h
    subst h
    cases package <;> simp [afterFlag, attaching] at hi
  | removeRunning package =>
    simp only [manageDispatch, hthread, Option.some.injEq] at h
    subst h
    cases package <;> simp [afterRunning, attaching] at hi
  | addExit package | sendMemory package | sendEnd package =>
    simp only [manageDispatch, hthread, Option.some.injEq] at h
    split at h <;> simp_all [attaching] <;> subst h <;> simp at hi
  | _ =>
    simp only [manageDispatch, hthread] at h
    repeat' split at h
    all_goals simp only [Option.some.injEq, reduceCtorEq] at h
    all_goals subst h
    all_goals simp [attaching] at hi

theorem manage_memory_service (hs : inService s = if s.mResolvePageFault then 1 else 0)
    (h : manageMemory cfg s = some t) :
    inService t = if t.mResolvePageFault then 1 else 0 := by
  have hnonneg : 0 ≤ total faultSent s.pageFaultThreads :=
    total_nonneg (fun p => by cases p <;> simp) _
  cases hthread : s.threadMemory with
  | receive =>
    simp only [manageMemory, hthread] at h
    split at h
    · simp at h
    · next pcb rest hq =>
      obtain rfl := Option.some.inj h
      simpa [inService, hq, hthread] using hs
    · next pcb rest hq =>
      obtain rfl := Option.some.inj h
      simp only [inService, hq, hthread, List.flatMap_cons, faultAnswered, faultClosing,
        List.length_append, List.length_singleton, add_zero] at hs ⊢
      rw [← hs]
      push_cast
      ring
  | addReady pcb =>
    simp only [manageMemory, hthread, Option.some.injEq] at h
    subst h
    cases halg : cfg.algoritmoPlanificacion <;> simpa [inService, addToReady, halg, hthread] using hs
  | unlockPageFault =>
    simp only [manageMemory, hthread, Option.some.injEq] at h
    subst h
    simp only [inService, hthread, faultClosing] at hs
    -- the fault that is unlocked is the one in service
    have hmutex : s.mResolvePageFault = true := by
      by_contra hopen
      rw [if_neg hopen] at hs
      omega
    rw [hmutex, if_pos rfl] at hs
    simp only [inService, Bool.false_eq_true, if_false]
    simp only [faultClosing]
    omega
  | replaceNew pcb | postInit | postReady =>
    simp only [manageMemory, hthread, Option.some.injEq] at h
    subst h
    simpa [inService, hthread] using hs

theorem resolve_page_fault_service (hs : inService s = if s.mResolvePageFault then 1 else 0) {i : ℕ}
    {p : PageFaultThread} (hp : s.pageFaultThreads[i]? = some p)
    (h : resolvePageFault s i p = some t) :
    inService t = if t.mResolvePageFault then 1 else 0 := by
  cases p with
  | lock pcb segment page =>
    cases hmutex : s.mResolvePageFault with
    | true => simp [resolvePageFault, hmutex] at h
    | false =>
      simp only [resolvePageFault, hmutex, Bool.false_eq_true, if_false, Option.some.injEq] at h
      subst h
      simp only [hmutex, Bool.false_eq_true, if_false] at hs
      simp only [inService, System.setPageFaultThread, total_set _ hp, faultSent, if_true] at hs ⊢
      omega
  | send pcb segment page =>
    simp only [resolvePageFault, Option.some.injEq] at h
    subst h
    refine Eq.trans ?_ hs
    simp [inService, System.setPageFaultThread, total_set _ hp]
  | finished => simp [resolvePageFault] at h

theorem memoria_service {segments : List Segment} (h : memoria s segments = some t) :
    inService t = inService s := by
  obtain ⟨request, rest, hq, rfl⟩ := memoria_cases h
  cases request <;> simp [inService, hq, memoryAnswer]
  ring

theorem process_dispatch_unsent {answers : Answers} (hs : Sections cfg s)
    (h : processDispatch cfg s answers = some t) : s.sent ≠ 0 := by
  intro h0
  have hunsent := hs.unsent h0
  simp [processDispatch, hunsent.2.1, hunsent.1] at h

theorem manage_dispatch_unsent (hs : Sections cfg s) (h : manageDispatch cfg s = some t) :
    s.sent ≠ 0 := by
  intro h0
  have hunsent := hs.unsent h0
  simp [manageDispatch, hunsent.2.2.2, hunsent.2.2.1] at h

theorem step_tokens (hsound : Sound cfg s) (hs : Sections cfg s) {e : Event}
    (h : step cfg s e = some t) (halg : cfg.algoritmoPlanificacion ≠ .feedback) :
    stranded cfg t = 0 := by
  have hzero := hs.tokens halg
  rcases step_keeps hsound h with ⟨-, hkeeps⟩ | ⟨hposts, -⟩
  · rw [hkeeps.stranded, hzero, add_zero]
  · refine absurd ?_ hposts
    cases e with
    | manageMemory => exact fun hunposted => halg hunposted.1
    | _ => trivial

theorem step_sections (hsound : Sound cfg s) (hs : Sections cfg s) {e : Event}
    (h : step cfg s e = some t) : Sections cfg t := by
  have htokens := fun halg => step_tokens hsound hs h halg
  cases e with
  | connect instructions segments =>
    obtain rfl := Option.some.inj h
    exact ⟨hs.out, hs.clock, hs.service, hs.queues, hs.ultimo,
      hs.unsent, hs.attached, htokens⟩
  | console i value =>
    obtain ⟨c, -, h⟩ := Option.bind_eq_some_iff.mp h
    obtain ⟨_, _, _, _, -, rfl⟩ := consola_frame h
    exact ⟨hs.out, hs.clock, hs.service, hs.queues, hs.ultimo,
      hs.unsent, hs.attached, htokens⟩
  | receiveConsole i =>
    obtain ⟨c, -, h⟩ := Option.bind_eq_some_iff.mp h
    have hqueues := receive_console_queues hs.queues h
    have hrequests := receive_console_requests h
    obtain ⟨_, _, _, _, _, _, _, _, _, _, _, _, rfl⟩ := receive_console_frame h
    refine ⟨hs.out, hs.clock, ?_, hqueues, hs.ultimo,
      hs.unsent, hs.attached, htokens⟩
    simpa only [inService, hrequests] using hs.service
  | scheduleNextToRunning =>
    have hqueues := schedule_next_to_running_queues hs.queues h
    obtain ⟨hultimo, hunsent⟩ := schedule_next_to_running_ultimo hs h
    obtain ⟨_, _, _, _, _, _, _, _, _, _, _, rfl⟩ := schedule_next_to_running_frame h
    exact ⟨hs.out, hs.clock, hs.service, hqueues, hultimo, hunsent, hs.attached, htokens⟩
  | manageDispatch =>
    have hout := manage_dispatch_out hs h
    have hservice := manage_dispatch_service h
    have hqueues := manage_dispatch_queues hs.queues h
    have hattached := fun i hi => manage_dispatch_attached hs h (i := i) hi
    have hsent := manage_dispatch_unsent hs h
    obtain ⟨_, _, _, _, _, _, _, _, _, _, _, _, _, _, _, _, rfl⟩ := manage_dispatch_frame h
    exact ⟨hout, hs.clock, hservice.trans hs.service, hqueues, hs.ultimo,
      fun h0 => absurd h0 hsent, hattached, htokens⟩
  | manageInterrupt =>
    obtain ⟨_, _, _, _, rfl⟩ := manage_interrupt_frame h
    exact ⟨hs.out, hs.clock, hs.service, hs.queues, hs.ultimo,
      hs.unsent, hs.attached, htokens⟩
  | countQuantum expired =>
    have hout := count_quantum_out hs h
    have hfifo : cfg.algoritmoPlanificacion ≠ .fifo := by
      intro halg
      simp [step, countQuantumOfRoundRobin, halg] at h
    obtain ⟨_, _, _, _, _, _, rfl⟩ := count_quantum_frame h
    exact ⟨hout, fun halg => absurd halg hfifo, hs.service, hs.queues,
      hs.ultimo, hs.unsent, hs.attached, htokens⟩
  | manageMemory =>
    have hservice := manage_memory_service hs.service h
    have hqueues := manage_memory_queues hs.queues h
    obtain ⟨_, _, _, _, _, _, _, _, rfl⟩ := manage_memory_frame h
    exact ⟨hs.out, hs.clock, hservice, hqueues, hs.ultimo, hs.unsent, hs.attached, htokens⟩
  | resolvePageFault i =>
    obtain ⟨p, hp, h⟩ := Option.bind_eq_some_iff.mp h
    have hservice := resolve_page_fault_service hs.service hp h
    obtain ⟨_, _, _, rfl⟩ := resolve_page_fault_frame h
    exact ⟨hs.out, hs.clock, hservice, hs.queues, hs.ultimo,
      hs.unsent, hs.attached, htokens⟩
  | simulateIo i =>
    obtain ⟨d, hd, h⟩ := Option.bind_eq_some_iff.mp h
    have hqueues := simulate_io_default_queues hs.queues h
    have hlength := simulate_io_default_length h
    obtain ⟨_, _, _, _, rfl⟩ := simulate_io_default_frame h
    exact ⟨hs.out, hs.clock, hs.service, hqueues, hs.ultimo, hs.unsent,
      fun j hj => (hs.attached j hj).trans_eq hlength.symm, htokens⟩
  | processDispatch answers =>
    have hsent := process_dispatch_unsent hs h
    obtain ⟨_, _, _, _, _, _, _, rfl⟩ := process_dispatch_frame h
    exact ⟨hs.out, hs.clock, hs.service, hs.queues, hs.ultimo,
      fun h0 => absurd h0 hsent, hs.attached, htokens⟩
  | processInterrupt =>
    obtain ⟨_, _, -, rfl⟩ := process_interrupt_cases h
    exact ⟨hs.out, hs.clock, hs.service, hs.queues, hs.ultimo,
      hs.unsent, hs.attached, htokens⟩
  | memoria segments =>
    have hservice := memoria_service h
    obtain ⟨_, _, -, rfl⟩ := memoria_cases h
    exact ⟨hs.out, hs.clock, hservice.trans hs.service, hs.queues,
      hs.ultimo, hs.unsent, hs.attached, htokens⟩

theorem boot_sections (cfg : KernelConfig) (time : TimeVal) : Sections cfg (boot cfg time) where
  out := by simp [boot]
  clock := fun _ => rfl
  service := by simp [inService, boot]
  queues := by cases halg : cfg.algoritmoPlanificacion <;> simp [Queues, halg, boot]
  ultimo := fun _ => Or.inl rfl
  unsent := fun _ => ⟨rfl, rfl, rfl, rfl⟩
  attached := by simp [boot, attaching]
  tokens := fun _ => boot_stranded cfg time

end Steps

/-- `m_resolve_page_fault` lets one page fault at a time go from its thread to memory and
back to READY, and it is closed just while one does. -/
theorem one_fault_in_service (cfg : KernelConfig) (time : TimeVal) (es : List Event) :
    Always (step cfg) (fun s => inService s = if s.mResolvePageFault then 1 else 0)
      (boot cfg time) es :=
  always_of_invariant (step cfg) (fun s => Sound cfg s ∧ Sections cfg s) _
    (fun _ _ _ hs h => ⟨step_sound hs.1 h, step_sections hs.1 hs.2 h⟩)
    (fun _ hs => hs.2.service) es _ ⟨boot_sound cfg time, boot_sections cfg time⟩

end Geck.SharedSections
