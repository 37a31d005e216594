import Geck.KernelSoundness

/-!
# First come, first served

Five threads put processes in READY and the short-term scheduler alone takes
them out. Each queue gives its processes in the order in which it got them, and
the CPU takes them in the order in which the scheduler chose them.
-/

set_option autoImplicit false

namespace Geck.ReadyOrder
open Geck.LabelledRuns Geck.BlockStore Geck.SharedPcb Geck.MemoryHandlers Geck.CpuTranslation
open Geck.CpuExecution Geck.KernelState Geck.KernelThreads Geck.KernelFrames Geck.KernelLedger

inductive ReadyQueue where
  | ready
  | rr
  | fifo
  deriving DecidableEq, Repr

def queueOf (s : System) : ReadyQueue → List Pcb
  | .ready => s.listReady
  | .rr => s.listReadyRr
  | .fifo => s.listReadyFifo

/-- The queue of every return to READY but the one after a quantum. -/
def target (cfg : KernelConfig) : ReadyQueue :=
  match cfg.algoritmoPlanificacion with
  | .feedback => .rr
  | _ => .ready

/-- A quantum has expired; under FIFO none does. -/
def preempted (cfg : KernelConfig) : ThreadDispatch → List (ReadyQueue × Pcb)
  | .addReady pcb =>
    match cfg.algoritmoPlanificacion with
    | .rr => [(.ready, changePcbStateTo pcb .ready)]
    | .feedback => [(.fifo, changePcbStateTo pcb .ready)]
    | .fifo => []
  | _ => []

def returned (cfg : KernelConfig) (pcbs : List Pcb) : List (ReadyQueue × Pcb) :=
  pcbs.map fun pcb => (target cfg, changePcbStateTo pcb .ready)

/-- The processes that a step makes ready. -/
def made (cfg : KernelConfig) (s : System) : Event → List (ReadyQueue × Pcb)
  | .receiveConsole i => s.consoles[i]?.elim [] fun c =>
    returned cfg (admitting c.thread++returning c.thread)
  | .manageDispatch => preempted cfg s.threadDispatch
  | .manageMemory => returned cfg (faultResolved s.threadMemory)
  | .simulateIo i => s.devices[i]?.elim [] fun d => returned cfg (serving d.thread)
  | _ => []

def headOf (s : System) (queue : ReadyQueue) : List (ReadyQueue × Pcb) :=
  ((queueOf s queue).head?.map fun pcb => (queue, pcb)).toList

/-- The process that the short-term scheduler takes. -/
def chosen (cfg : KernelConfig) (s : System) : Event → List (ReadyQueue × Pcb)
  | .scheduleNextToRunning =>
    match s.shortTermScheduler with
    | .choose => headOf s (target cfg)
    | .chooseFifo => headOf s .fifo
    | _ => []
  | _ => []

/-- The process that the CPU receives. -/
def taken (s : System) : Event → List Pcb
  | .processDispatch _ =>
    match s.cpuThread with
    | .receive => (s.toCpu.head?.map Prod.snd).toList
    | _ => []
  | _ => []

def ofQueue (queue : ReadyQueue) (entries : List (ReadyQueue × Pcb)) : List Pcb :=
  entries.flatMap fun e => if e.1 = queue then [e.2] else []

/-- The processes on their way to the CPU, the first one sent first. -/
def onTheWay (s : System) : List Pcb := s.toCpu.map Prod.snd++dispatching s.shortTermScheduler

section Steps
variable {cfg : KernelConfig} {s t : System} {queue : ReadyQueue}

theorem add_to_ready_queue (cfg : KernelConfig) (s : System) (pcb : Pcb) (queue : ReadyQueue) :
    queueOf (addToReady cfg s pcb) queue = queueOf s queue++ofQueue queue (returned cfg [pcb]) := by
  cases halg : cfg.algoritmoPlanificacion
  all_goals cases queue <;> simp [addToReady, queueOf, ofQueue, returned, target, halg]

theorem returned_queue {pcb : Pcb} (hready : t.listReady = (addToReady cfg s pcb).listReady)
    (hrr : t.listReadyRr = (addToReady cfg s pcb).listReadyRr)
    (hfifo : t.listReadyFifo = (addToReady cfg s pcb).listReadyFifo) :
    queueOf t queue = queueOf s queue++ofQueue queue (returned cfg [pcb]) := by
  rw [← add_to_ready_queue]
  cases queue <;> assumption

theorem receive_console_queue {i : ℕ} {c : Console} (hc : s.consoles[i]? = some c)
    (h : receiveConsole cfg s i c = some t) :
    queueOf t queue = queueOf s queue++ofQueue queue (made cfg s (.receiveConsole i)) := by
  cases hthread : c.thread with
  | returned pcb | addReady pcb =>
    simp only [receiveConsole, scheduleNextToReady, hthread, Option.some.injEq] at h
    subst h
    have hmade : made cfg s (.receiveConsole i) = returned cfg [pcb] := by simp [made, hc, hthread]
    rw [hmade]
    exact returned_queue rfl rfl rfl
  | _ =>
    simp only [receiveConsole, scheduleNextToReady, hthread] at h
    repeat' split at h
    all_goals simp only [Option.some.injEq, reduceCtorEq] at h
    all_goals
      subst h
      simp [made, hc, hthread, returned, ofQueue]
      rfl

theorem manage_dispatch_queue (h : manageDispatch cfg s = some t) :
    queueOf t queue = queueOf s queue++ofQueue queue (made cfg s .manageDispatch) := by
  cases hthread : s.threadDispatch with
  | addReady pcb =>
    simp only [manageDispatch, hthread] at h
    cases halg : cfg.algoritmoPlanificacion
    all_goals
      simp only [halg, Option.some.injEq] at h
      subst h
      cases queue <;> simp [queueOf, made, preempted, ofQueue, hthread, halg]
  | sendConsole package | sendEnd package =>
    simp only [manageDispatch, hthread] at h
    repeat' split at h
    all_goals
      simp only [Option.some.injEq] at h
      obtain ⟨_, hsent⟩ := send_to_console_frame s _ _
      rw [hsent] at h
      subst h
      simp [made, preempted, ofQueue, hthread]
      rfl
  | _ =>
    simp only [manageDispatch, hthread] at h
    repeat' split at h
    all_goals simp only [Option.some.injEq, reduceCtorEq] at h
    all_goals
      subst h
      simp [made, preempted, ofQueue, hthread]
      rfl

theorem manage_memory_queue (h : manageMemory cfg s = some t) :
    queueOf t queue = queueOf s queue++ofQueue queue (made cfg s .manageMemory) := by
  cases hthread : s.threadMemory with
  | addReady pcb =>
    simp only [manageMemory, hthread, Option.some.injEq] at h
    subst h
    have hmade : made cfg s .manageMemory = returned cfg [pcb] := by simp [made, hthread]
    rw [hmade]
    exact returned_queue rfl rfl rfl
  | _ =>
    simp only [manageMemory, hthread] at h
    repeat' split at h
    all_goals simp only [Option.some.injEq, reduceCtorEq] at h
    all_goals
      subst h
      simp [made, returned, ofQueue, hthread]
      rfl

theorem simulate_io_queue {i : ℕ} {d : Device} (hd : s.devices[i]? = some d)
    (h : simulateIoDefault cfg s i d = some t) :
    queueOf t queue = queueOf s queue++ofQueue queue (made cfg s (.simulateIo i)) := by
  cases hthread : d.thread with
  | serving time pcb =>
    simp only [simulateIoDefault, hthread, Option.some.injEq] at h
    subst h
    have hmade : made cfg s (.simulateIo i) = returned cfg [pcb] := by simp [made, hd, hthread]
    rw [hmade]
    exact returned_queue rfl rfl rfl
  | _ =>
    simp only [simulateIoDefault, hthread] at h
    repeat' split at h
    all_goals simp only [Option.some.injEq, reduceCtorEq] at h
    all_goals
      subst h
      simp [made, hd, returned, ofQueue, hthread]
      rfl

/-- The scheduler takes the front of one queue. -/
theorem schedule_next_to_running_queue (h : scheduleNextToRunning cfg s = some t) :
    queueOf s queue = ofQueue queue (chosen cfg s .scheduleNextToRunning)++queueOf t queue := by
  cases hthread : s.shortTermScheduler with
  | choose =>
    cases halg : cfg.algoritmoPlanificacion
    all_goals
      simp only [scheduleNextToRunning, hthread, halg] at h
      split at h
      all_goals simp only [Option.some.injEq, reduceCtorEq] at h
      all_goals
        subst h
        cases queue <;> simp [chosen, headOf, queueOf, ofQueue, target, *]
  | chooseFifo =>
    simp only [scheduleNextToRunning, hthread] at h
    split at h
    all_goals
      simp only [Option.some.injEq] at h
      subst h
      cases queue <;> simp [chosen, headOf, queueOf, ofQueue, *]
  | _ =>
    simp only [scheduleNextToRunning, hthread] at h
    repeat' split at h
    all_goals simp only [Option.some.injEq, reduceCtorEq] at h
    all_goals
      subst h
      simp [chosen, ofQueue, hthread]
      rfl

/-- A step puts at the end of a queue what it makes ready, and takes at the front what the
scheduler chooses. -/
theorem step_queue {e : Event} (h : step cfg s e = some t) (queue : ReadyQueue) :
    queueOf s queue++ofQueue queue (made cfg s e) =
      ofQueue queue (chosen cfg s e)++queueOf t queue := by
  cases e with
  | receiveConsole i =>
    obtain ⟨c, hc, h⟩ := Option.bind_eq_some_iff.mp h
    exact (receive_console_queue hc h).symm
  | manageDispatch => exact (manage_dispatch_queue h).symm
  | manageMemory => exact (manage_memory_queue h).symm
  | simulateIo i =>
    obtain ⟨d, hd, h⟩ := Option.bind_eq_some_iff.mp h
    exact (simulate_io_queue hd h).symm
  | scheduleNextToRunning =>
    rw [← schedule_next_to_running_queue h]
    exact List.append_nil _
  | connect instructions segments =>
    cases h
    exact List.append_nil _
  | console i value =>
    obtain ⟨c, -, h⟩ := Option.bind_eq_some_iff.mp h
    obtain ⟨_, _, _, _, _, rfl⟩ := consola_frame h
    exact List.append_nil _
  | manageInterrupt =>
    obtain ⟨_, _, _, _, rfl⟩ := manage_interrupt_frame h
    exact List.append_nil _
  | countQuantum expired =>
    obtain ⟨_, _, _, _, _, _, rfl⟩ := count_quantum_frame h
    exact List.append_nil _
  | resolvePageFault i =>
    obtain ⟨p, -, h⟩ := Option.bind_eq_some_iff.mp h
    obtain ⟨_, _, _, rfl⟩ := resolve_page_fault_frame h
    exact List.append_nil _
  | processDispatch answers =>
    obtain ⟨_, _, _, _, _, _, _, rfl⟩ := process_dispatch_frame h
    exact List.append_nil _
  | processInterrupt =>
    obtain ⟨_, _, -, rfl⟩ := process_interrupt_cases h
    exact List.append_nil _
  | memoria segments =>
    obtain ⟨_, _, -, rfl⟩ := memoria_cases h
    exact List.append_nil _

theorem schedule_next_to_running_way (h : scheduleNextToRunning cfg s = some t) :
    (onTheWay s).map identity++(chosen cfg s .scheduleNextToRunning).map (fun e => identity e.2) =
      (onTheWay t).map identity := by
  cases hthread : s.shortTermScheduler with
  | choose =>
    cases halg : cfg.algoritmoPlanificacion
    all_goals
      simp only [scheduleNextToRunning, hthread, halg] at h
      split at h
      all_goals simp only [Option.some.injEq, reduceCtorEq] at h
      all_goals
        subst h
        simp [onTheWay, chosen, headOf, queueOf, target, *]
  | chooseFifo =>
    simp only [scheduleNextToRunning, hthread] at h
    split at h
    all_goals
      simp only [Option.some.injEq] at h
      subst h
      simp [onTheWay, chosen, headOf, queueOf, *]
  | send pcb timed =>
    simp only [scheduleNextToRunning, hthread, Option.some.injEq] at h
    subst h
    cases timed <;> simp [onTheWay, chosen, hthread]
  | _ =>
    simp only [scheduleNextToRunning, hthread] at h
    repeat' split at h
    all_goals simp only [Option.some.injEq, reduceCtorEq] at h
    all_goals
      subst h
      simp [onTheWay, chosen, hthread]

theorem process_dispatch_way {answers : Answers} (h : processDispatch cfg s answers = some t) :
    onTheWay s = taken s (.processDispatch answers)++onTheWay t := by
  cases hthread : s.cpuThread with
  | receive =>
    cases hq : s.toCpu with
    | nil => simp [processDispatch, hthread, hq] at h
    | cons first rest =>
      simp only [processDispatch, hthread, hq, Option.some.injEq] at h
      subst h
      simp [onTheWay, taken, hthread, hq]
  | running dispatch pcb =>
    simp only [processDispatch, hthread] at h
    split at h
    · simp only [Option.bind_eq_bind, Option.bind_eq_some_iff, Option.some.injEq] at h
      obtain ⟨_, -, rfl⟩ := h
      simp [onTheWay, taken, hthread]
    · simp only [Option.some.injEq] at h
      subst h
      simp [onTheWay, taken, hthread]
  | _ =>
    simp only [processDispatch, hthread] at h
    repeat' split at h
    all_goals simp only [Option.some.injEq] at h
    all_goals
      subst h
      simp [onTheWay, taken, hthread]

/-- What the scheduler chooses goes to the CPU behind what it chose before. -/
theorem step_way {e : Event} (h : step cfg s e = some t) :
    (onTheWay s).map identity++(chosen cfg s e).map (fun e => identity e.2) =
      (taken s e).map identity++(onTheWay t).map identity := by
  cases e with
  | scheduleNextToRunning => exact schedule_next_to_running_way h
  | processDispatch answers =>
    rw [process_dispatch_way h, List.map_append]
    exact List.append_nil _
  | connect instructions segments =>
    cases h
    exact List.append_nil _
  | console i value =>
    obtain ⟨c, -, h⟩ := Option.bind_eq_some_iff.mp h
    obtain ⟨_, _, _, _, _, rfl⟩ := consola_frame h
    exact List.append_nil _
  | receiveConsole i =>
    obtain ⟨c, -, h⟩ := Option.bind_eq_some_iff.mp h
    obtain ⟨_, _, _, _, _, _, _, _, _, _, _, _, rfl⟩ := receive_console_frame h
    exact List.append_nil _
  | manageDispatch =>
    obtain ⟨_, _, _, _, _, _, _, _, _, _, _, _, _, _, _, _, rfl⟩ := manage_dispatch_frame h
    exact List.append_nil _
  | manageInterrupt =>
    obtain ⟨_, _, _, _, rfl⟩ := manage_interrupt_frame h
    exact List.append_nil _
  | countQuantum expired =>
    obtain ⟨_, _, _, _, _, _, rfl⟩ := count_quantum_frame h
    exact List.append_nil _
  | manageMemory =>
    obtain ⟨_, _, _, _, _, _, _, _, rfl⟩ := manage_memory_frame h
    exact List.append_nil _
  | resolvePageFault i =>
    obtain ⟨p, -, h⟩ := Option.bind_eq_some_iff.mp h
    obtain ⟨_, _, _, rfl⟩ := resolve_page_fault_frame h
    exact List.append_nil _
  | simulateIo i =>
    obtain ⟨d, -, h⟩ := Option.bind_eq_some_iff.mp h
    obtain ⟨_, _, _, _, rfl⟩ := simulate_io_default_frame h
    exact List.append_nil _
  | processInterrupt =>
    obtain ⟨_, _, -, rfl⟩ := process_interrupt_cases h
    exact List.append_nil _
  | memoria segments =>
    obtain ⟨_, _, -, rfl⟩ := memoria_cases h
    exact List.append_nil _

end Steps

/-- `queues` says that each queue gives its processes in the order in which it got them,
`cpu` that the CPU receives them in the order in which the scheduler takes them. -/
structure FirstCome (s : System) (made chosen : List (ReadyQueue × Pcb)) (taken : List Pcb) :
    Prop where
  queues : ∀ queue, ofQueue queue made = ofQueue queue chosen++queueOf s queue
  cpu : chosen.map (fun e => identity e.2) = taken.map identity++(onTheWay s).map identity

/-- In every interleaving of the threads, under every algorithm. -/
theorem first_come_first_served (cfg : KernelConfig) (time : TimeVal) (events : List Event)
    (s : System) (h : run (step cfg) (boot cfg time) events = some s) :
    FirstCome s (collected (step cfg) (made cfg) (boot cfg time) events)
      (collected (step cfg) (chosen cfg) (boot cfg time) events)
      (collected (step cfg) taken (boot cfg time) events) where
  queues := by
    intro queue
    have hlaw := collected_queue (step cfg) (fun _ => True) (fun s => queueOf s queue)
      (fun s e => ofQueue queue (made cfg s e)) (fun s e => ofQueue queue (chosen cfg s e))
      (fun _ _ _ _ _ => trivial) (fun _ _ _ _ h => step_queue h queue) events (boot cfg time) s
      trivial h
    have hboot : queueOf (boot cfg time) queue = [] := by cases queue <;> rfl
    rw [hboot, List.nil_append] at hlaw
    rw [ofQueue, ofQueue, ← collected_flat_map, ← collected_flat_map]
    exact hlaw
  cpu := by
    have hlaw := collected_queue (step cfg) (fun _ => True) (fun s => (onTheWay s).map identity)
      (fun s e => (chosen cfg s e).map fun e => identity e.2) (fun s e => (taken s e).map identity)
      (fun _ _ _ _ _ => trivial) (fun _ _ _ _ h => step_way h) events (boot cfg time) s trivial h
    rw [show (onTheWay (boot cfg time)).map identity = [] from rfl, List.nil_append] at hlaw
    simpa only [List.map_eq_flatMap, collected_flat_map] using hlaw

/-- Two processes become ready and the CPU takes the first one. -/
def twoReady : List Event :=
  admission 0 ["EXIT"]++admission 1 ["EXIT"]++dispatching .fifo++[.processDispatch faulting]

def twoReadySystem : System :=
  reached (step (smallKernel .fifo)) (boot (smallKernel .fifo) midnight) twoReady

theorem first_come_first_served_two :
    ∃ made chosen taken, FirstCome twoReadySystem made chosen taken ∧
      made.map (fun e => (e.1, e.2.processId)) = [(.ready, 1), (.ready, 2)] ∧
      taken.map Pcb.processId = [1] ∧ twoReadySystem.listReady.map Pcb.processId = [2] :=
  ⟨_, _, _, first_come_first_served (smallKernel .fifo) midnight twoReady twoReadySystem
    (run_reached _ _ _ (by decide +kernel)), by decide +kernel, by decide +kernel,
    by decide +kernel⟩

end Geck.ReadyOrder
