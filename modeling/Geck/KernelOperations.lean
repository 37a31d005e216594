import Geck.DeviceQueues
import Geck.SplitOperations

/-!
# The kernel's list operations in two parts

`add_to_list_with_sems` gets the mutex of the list by value and locks its copy,
`list_replace` and the lists of the devices have none: only the removals and the
addition to EXIT hold the mutex itself. Here a change of a list reads the list
and writes it back, and between the two the other threads move.
-/

set_option autoImplicit false

namespace Geck.KernelOperations
open Geck.LabelledRuns Geck.SplitOperations Geck.BlockStore Geck.SharedPcb Geck.MemoryHandlers
open Geck.CpuTranslation Geck.CpuExecution Geck.KernelState Geck.KernelThreads Geck.KernelFrames
open Geck.KernelSoundness Geck.DeviceQueues

inductive KernelList where
  | new
  | ready
  | readyRr
  | readyFifo
  | blocked
  | running
  | exit
  | device (i : ℕ)
  deriving DecidableEq, Repr

inductive Contents where
  | pcbs (l : List Pcb)
  | items (l : List DeviceItem)
  deriving DecidableEq, Repr

/-- A thread of the kernel, or a peer. -/
inductive Thread where
  | outside
  | consola (i : ℕ)
  | receiveConsole (i : ℕ)
  | scheduler
  | dispatch
  | interrupt
  | clock
  | memory
  | pageFault (i : ℕ)
  | device (i : ℕ)
  | cpu
  | cpuInterrupt
  | memoria
  deriving DecidableEq, Repr

def thread : Event → Thread
  | .connect _ _ => .outside
  | .console i _ => .consola i
  | .receiveConsole i => .receiveConsole i
  | .scheduleNextToRunning => .scheduler
  | .manageDispatch => .dispatch
  | .manageInterrupt => .interrupt
  | .countQuantum _ => .clock
  | .manageMemory => .memory
  | .resolvePageFault i => .pageFault i
  | .simulateIo i => .device i
  | .processDispatch _ => .cpu
  | .processInterrupt => .cpuInterrupt
  | .memoria _ => .memoria

/-- The list of `addToReady`. -/
def readyList (cfg : KernelConfig) : KernelList :=
  match cfg.algoritmoPlanificacion with
  | .feedback => .readyRr
  | _ => .ready

def consoleList (cfg : KernelConfig) : ConsoleThread → Option KernelList
  | .created _ => some .new
  | .removeNew => some .new
  | .addReady _ => some (readyList cfg)
  | .returned _ => some (readyList cfg)
  | _ => none

/-- Under FEEDBACK an empty queue is only tested. -/
def schedulerList (cfg : KernelConfig) (s : System) : Option KernelList :=
  match s.shortTermScheduler with
  | .choose =>
    match cfg.algoritmoPlanificacion with
    | .feedback => if s.listReadyRr = [] then none else some .readyRr
    | _ => some .ready
  | .chooseFifo => if s.listReadyFifo = [] then none else some .readyFifo
  | .addRunning _ _ => some .running
  | _ => none

def dispatchList (cfg : KernelConfig) (s : System) : Option KernelList :=
  match s.threadDispatch with
  | .addBlocked _ _ _ => some .blocked
  | .addTime _ device _ => (dictionaryGet s.devices device).map KernelList.device
  | .addProcess _ i => some (.device i)
  | .removeRunning _ => some .running
  | .addReady _ =>
    match cfg.algoritmoPlanificacion with
    | .rr => some .ready
    | .feedback => some .readyFifo
    | .fifo => none
  | .addExit _ => some .exit
  | _ => none

def memoryList (cfg : KernelConfig) : ThreadMemory → Option KernelList
  | .replaceNew _ => some .new
  | .addReady _ => some (readyList cfg)
  | _ => none

def deviceList (cfg : KernelConfig) (i : ℕ) : DeviceThread → Option KernelList
  | .removeTime => some (.device i)
  | .removeProcess _ => some (.device i)
  | .serving _ _ => some (readyList cfg)
  | _ => none

/-- The list that a step changes. -/
def listChanged (cfg : KernelConfig) (s : System) : Event → Option KernelList
  | .receiveConsole i => (s.consoles[i]?).bind fun c => consoleList cfg c.thread
  | .scheduleNextToRunning => schedulerList cfg s
  | .manageDispatch => dispatchList cfg s
  | .manageMemory => memoryList cfg s.threadMemory
  | .simulateIo i => (s.devices[i]?).bind fun d => deviceList cfg i d.thread
  | _ => none

/-- The list whose mutex a step locks, not a copy of it. -/
def listLocked (cfg : KernelConfig) (s : System) : Event → Option KernelList
  | .receiveConsole i => (s.consoles[i]?).bind fun c =>
    match c.thread with
    | .getNew => some .new
    | .removeNew => some .new
    | _ => none
  | .scheduleNextToRunning =>
    match s.shortTermScheduler with
    | .addRunning _ _ => none
    | _ => schedulerList cfg s
  | .manageDispatch =>
    match s.threadDispatch with
    | .removeRunning _ => some .running
    | .addExit _ => some .exit
    | _ => none
  | _ => none

def contents (s : System) : KernelList → Contents
  | .new => .pcbs s.listNew
  | .ready => .pcbs s.listReady
  | .readyRr => .pcbs s.listReadyRr
  | .readyFifo => .pcbs s.listReadyFifo
  | .blocked => .pcbs s.listBlocked
  | .running => .pcbs s.listRunning
  | .exit => .pcbs s.listExit
  | .device i => .items ((s.devices[i]?).elim [] Device.listProcesses)

def setContents (s : System) : KernelList → Contents → System
  | .new, .pcbs l => { s with listNew := l }
  | .ready, .pcbs l => { s with listReady := l }
  | .readyRr, .pcbs l => { s with listReadyRr := l }
  | .readyFifo, .pcbs l => { s with listReadyFifo := l }
  | .blocked, .pcbs l => { s with listBlocked := l }
  | .running, .pcbs l => { s with listRunning := l }
  | .exit, .pcbs l => { s with listExit := l }
  | .device i, .items l =>
    (s.devices[i]?).elim s fun d => s.setDevice i { d with listProcesses := l }
  | _, _ => s

def kernelOperations (cfg : KernelConfig) :
    Operations System Event Thread KernelList Contents where
  step := step cfg
  agent := thread
  component := listChanged cfg
  locked := listLocked cfg
  get := contents
  put := setContents

/-- The kernel with the list operations that its threads have begun. -/
abbrev SplitSystem := Parted System Event KernelList Contents

def splitBoot (cfg : KernelConfig) (time : TimeVal) : SplitSystem := ⟨boot cfg time, []⟩

def splitStep (cfg : KernelConfig) : SplitSystem → Move Event → Option SplitSystem :=
  move (kernelOperations cfg)

/-- No operation begins on a list while another one is on it. -/
def ListsWhole (cfg : KernelConfig) : SplitSystem → Move Event → Prop :=
  Alone (kernelOperations cfg)

instance (cfg : KernelConfig) (c : SplitSystem) (p : Move Event) : Decidable (ListsWhole cfg c p) :=
  inferInstanceAs (Decidable (Alone (kernelOperations cfg) c p))

theorem set_contents_same (s : System) (k : KernelList) : setContents s k (contents s k) = s := by
  cases k with
  | device i =>
    cases hd : s.devices[i]? with
    | none => simp [contents, setContents, hd]
    | some d =>
      have hset : s.devices.set i d = s.devices := by
        obtain ⟨hi, rfl⟩ := List.getElem?_eq_some_iff.mp hd
        exact List.set_getElem_self hi
      simp [contents, setContents, System.setDevice, hd, hset]
  | _ => rfl

section Laws
variable {cfg : KernelConfig} {s t : System} {k : KernelList}

theorem add_to_ready_contents (pcb : Pcb) (hk : k ≠ readyList cfg) :
    contents (addToReady cfg s pcb) k = contents s k := by
  cases halg : cfg.algoritmoPlanificacion
  all_goals
    simp only [readyList, addToReady, halg] at hk ⊢
    cases k <;> first | rfl | exact absurd rfl hk

theorem receive_console_contents {i : ℕ} {c : Console} (h : receiveConsole cfg s i c = some t)
    (hk : consoleList cfg c.thread ≠ some k) : contents t k = contents s k := by
  cases hthread : c.thread with
  | created pcb =>
    simp only [receiveConsole, hthread, Option.some.injEq] at h
    subst h
    cases k <;> first | rfl | simp [consoleList, hthread] at hk
  | removeNew =>
    cases hn : s.listNew with
    | nil => simp [receiveConsole, scheduleNextToReady, hthread, hn] at h
    | cons pcb rest =>
      simp only [receiveConsole, scheduleNextToReady, hthread, hn, Option.some.injEq] at h
      subst h
      cases k <;> first | rfl | simp [consoleList, hthread] at hk
  | addReady pcb | returned pcb =>
    simp only [receiveConsole, scheduleNextToReady, hthread, Option.some.injEq] at h
    subst h
    have hready : k ≠ readyList cfg := fun hready => by simp [consoleList, hthread, hready] at hk
    refine Eq.trans ?_ (add_to_ready_contents (s := s) pcb hready)
    cases k <;> rfl
  | _ =>
    simp only [receiveConsole, scheduleNextToReady, hthread] at h
    repeat' split at h
    all_goals simp only [Option.some.injEq, reduceCtorEq] at h
    all_goals
      subst h
      cases k <;> rfl

theorem schedule_next_to_running_contents (h : scheduleNextToRunning cfg s = some t)
    (hk : schedulerList cfg s ≠ some k) : contents t k = contents s k := by
  cases hthread : s.shortTermScheduler with
  | choose =>
    simp only [scheduleNextToRunning, schedulerList, hthread] at h hk
    cases halg : cfg.algoritmoPlanificacion
    all_goals
      simp only [halg] at h hk
      split at h
    all_goals simp only [Option.some.injEq, reduceCtorEq] at h
    all_goals
      subst h
      cases k <;> first | rfl | simp_all
  | chooseFifo =>
    simp only [scheduleNextToRunning, schedulerList, hthread] at h hk
    split at h
    all_goals
      simp only [Option.some.injEq] at h
      subst h
      cases k <;> first | rfl | simp_all
  | addRunning pcb timed =>
    simp only [scheduleNextToRunning, hthread, Option.some.injEq] at h
    subst h
    cases k <;> first | rfl | simp [schedulerList, hthread] at hk
  | _ =>
    simp only [scheduleNextToRunning, hthread] at h
    repeat' split at h
    all_goals simp only [Option.some.injEq, reduceCtorEq] at h
    all_goals
      subst h
      cases k <;> rfl

theorem device_contents {i : ℕ} {d : Device} (hd : s.devices[i]? = some d) (d' : Device) {j : ℕ}
    (hj : j ≠ i ∨ d'.listProcesses = d.listProcesses) :
    contents (s.setDevice i d') (.device j) = contents s (.device j) := by
  by_cases hij : i = j
  · subst hij
    have hlist := hj.resolve_left (by simp)
    simp [contents, System.setDevice, hd, hlist,
      List.getElem?_set_self (List.getElem?_eq_some_iff.mp hd).1]
  · simp [contents, System.setDevice, List.getElem?_set_ne hij]

theorem manage_dispatch_contents (h : manageDispatch cfg s = some t)
    (hk : dispatchList cfg s ≠ some k) : contents t k = contents s k := by
  cases hthread : s.threadDispatch with
  | addTime pcb device parameter =>
    obtain ⟨i, d, hi, hd, rfl⟩ := add_time_some hthread h
    simp only [dispatchList, hthread, hi, Option.map_some, ne_eq, Option.some.injEq] at hk
    cases k with
    | device j => exact device_contents hd _ (Or.inl fun hij => hk (by rw [hij]))
    | _ => rfl
  | addProcess pcb i =>
    obtain ⟨d, hd, rfl⟩ := add_process_some hthread h
    simp only [dispatchList, hthread, ne_eq, Option.some.injEq] at hk
    cases k with
    | device j => exact device_contents hd _ (Or.inl fun hij => hk (by rw [hij]))
    | _ => rfl
  | postDevice i =>
    obtain ⟨d, hd, rfl⟩ := post_device_some hthread h
    cases k with
    | device j => exact device_contents hd _ (Or.inr rfl)
    | _ => rfl
  | sendConsole package =>
    simp only [manageDispatch, hthread, Option.some.injEq] at h
    obtain ⟨_, hsent⟩ := send_to_console_frame s (packagePcb package).clientSocket (ioMessage package)
    rw [hsent] at h
    subst h
    cases k <;> rfl
  | sendEnd package =>
    cases package
    all_goals
      simp only [manageDispatch, hthread, Option.some.injEq, sendToConsole] at h
      subst h
      split <;> cases k <;> rfl
  | addReady pcb =>
    cases halg : cfg.algoritmoPlanificacion
    all_goals
      simp only [manageDispatch, dispatchList, hthread, halg, Option.some.injEq] at h hk
      subst h
      cases k <;> first | rfl | exact absurd rfl hk
  | addBlocked _ _ _ | removeRunning _ | addExit _ =>
    simp only [manageDispatch, hthread, Option.some.injEq] at h
    subst h
    cases k <;> first | rfl | simp [dispatchList, hthread] at hk
  | _ =>
    simp only [manageDispatch, hthread] at h
    repeat' split at h
    all_goals simp only [Option.some.injEq, reduceCtorEq] at h
    all_goals
      subst h
      cases k <;> rfl

theorem manage_memory_contents (h : manageMemory cfg s = some t)
    (hk : memoryList cfg s.threadMemory ≠ some k) : contents t k = contents s k := by
  cases hthread : s.threadMemory with
  | replaceNew pcb =>
    simp only [manageMemory, hthread, Option.some.injEq] at h
    subst h
    cases k <;> first | rfl | simp [memoryList, hthread] at hk
  | addReady pcb =>
    simp only [manageMemory, hthread, Option.some.injEq] at h
    subst h
    have hready : k ≠ readyList cfg := fun hready => by simp [memoryList, hthread, hready] at hk
    refine Eq.trans ?_ (add_to_ready_contents (s := s) pcb hready)
    cases k <;> rfl
  | _ =>
    simp only [manageMemory, hthread] at h
    repeat' split at h
    all_goals simp only [Option.some.injEq, reduceCtorEq] at h
    all_goals
      subst h
      cases k <;> rfl

theorem simulate_io_contents {i : ℕ} {d : Device} (hd : s.devices[i]? = some d)
    (h : simulateIoDefault cfg s i d = some t) (hk : deviceList cfg i d.thread ≠ some k) :
    contents t k = contents s k := by
  cases hthread : d.thread with
  | removeTime | removeProcess time =>
    simp only [simulateIoDefault, hthread] at h
    split at h
    all_goals simp only [Option.some.injEq, reduceCtorEq] at h
    subst h
    cases k with
    | device j =>
      exact device_contents hd _ (Or.inl fun hij => by simp [deviceList, hthread, hij] at hk)
    | _ => rfl
  | serving time pcb =>
    simp only [simulateIoDefault, hthread, Option.some.injEq] at h
    subst h
    have hready : k ≠ readyList cfg := fun hready => by simp [deviceList, hthread, hready] at hk
    refine Eq.trans ?_ (add_to_ready_contents (s := s) pcb hready)
    have hd' : (addToReady cfg s pcb).devices[i]? = some d := by
      obtain ⟨_, _, hadd⟩ := add_to_ready_frame cfg s pcb
      rwa [hadd]
    cases k with
    | device j => exact device_contents hd' _ (Or.inr rfl)
    | _ => rfl
  | wait =>
    simp only [simulateIoDefault, hthread, Option.ite_none_right_eq_some, Option.some.injEq] at h
    obtain ⟨-, rfl⟩ := h
    cases k with
    | device j => exact device_contents hd _ (Or.inr rfl)
    | _ => rfl
  | postReady =>
    simp only [simulateIoDefault, hthread, Option.some.injEq] at h
    subst h
    cases k with
    | device j => exact device_contents (s := { s with semProcessInReady := _ }) hd _ (Or.inr rfl)
    | _ => rfl

/-- A list changes only in the operations on it. -/
theorem step_contents {e : Event} (h : step cfg s e = some t) (hk : listChanged cfg s e ≠ some k) :
    contents t k = contents s k := by
  cases e with
  | connect instructions segments =>
    obtain rfl := Option.some.inj h
    cases k <;> rfl
  | console i value =>
    obtain ⟨c, -, h⟩ := Option.bind_eq_some_iff.mp h
    obtain ⟨_, _, _, _, -, rfl⟩ := consola_frame h
    cases k <;> rfl
  | receiveConsole i =>
    obtain ⟨c, hc, h⟩ := Option.bind_eq_some_iff.mp h
    exact receive_console_contents h (by simpa [listChanged, hc] using hk)
  | scheduleNextToRunning => exact schedule_next_to_running_contents h hk
  | manageDispatch => exact manage_dispatch_contents h hk
  | manageInterrupt =>
    obtain ⟨_, _, _, _, rfl⟩ := manage_interrupt_frame h
    cases k <;> rfl
  | countQuantum expired =>
    obtain ⟨_, _, _, _, _, _, rfl⟩ := count_quantum_frame h
    cases k <;> rfl
  | manageMemory => exact manage_memory_contents h hk
  | resolvePageFault i =>
    obtain ⟨p, -, h⟩ := Option.bind_eq_some_iff.mp h
    obtain ⟨_, _, _, rfl⟩ := resolve_page_fault_frame h
    cases k <;> rfl
  | simulateIo i =>
    obtain ⟨d, hd, h⟩ := Option.bind_eq_some_iff.mp h
    exact simulate_io_contents hd h (by simpa [listChanged, hd] using hk)
  | processDispatch answers =>
    obtain ⟨_, _, _, _, _, _, _, rfl⟩ := process_dispatch_frame h
    cases k <;> rfl
  | processInterrupt =>
    obtain ⟨_, _, -, rfl⟩ := process_interrupt_cases h
    cases k <;> rfl
  | memoria segments =>
    obtain ⟨_, _, -, rfl⟩ := memoria_cases h
    cases k <;> rfl

/-- A thread is moved by itself alone. -/
theorem step_threads {e : Event} (h : step cfg s e = some t) :
    (thread e ≠ .scheduler → t.shortTermScheduler = s.shortTermScheduler) ∧
    (thread e ≠ .dispatch → t.threadDispatch = s.threadDispatch) ∧
    (thread e ≠ .memory → t.threadMemory = s.threadMemory) := by
  cases e with
  | connect instructions segments =>
    obtain rfl := Option.some.inj h
    exact ⟨fun _ => rfl, fun _ => rfl, fun _ => rfl⟩
  | console i value =>
    obtain ⟨c, -, h⟩ := Option.bind_eq_some_iff.mp h
    obtain ⟨_, _, _, _, -, rfl⟩ := consola_frame h
    exact ⟨fun _ => rfl, fun _ => rfl, fun _ => rfl⟩
  | receiveConsole i =>
    obtain ⟨c, -, h⟩ := Option.bind_eq_some_iff.mp h
    obtain ⟨_, _, _, _, _, _, _, _, _, _, _, _, rfl⟩ := receive_console_frame h
    exact ⟨fun _ => rfl, fun _ => rfl, fun _ => rfl⟩
  | scheduleNextToRunning =>
    obtain ⟨_, _, _, _, _, _, _, _, _, _, _, rfl⟩ := schedule_next_to_running_frame h
    exact ⟨fun hne => absurd rfl hne, fun _ => rfl, fun _ => rfl⟩
  | manageDispatch =>
    obtain ⟨_, _, _, _, _, _, _, _, _, _, _, _, _, _, _, _, rfl⟩ := manage_dispatch_frame h
    exact ⟨fun _ => rfl, fun hne => absurd rfl hne, fun _ => rfl⟩
  | manageInterrupt =>
    obtain ⟨_, _, _, _, rfl⟩ := manage_interrupt_frame h
    exact ⟨fun _ => rfl, fun _ => rfl, fun _ => rfl⟩
  | countQuantum expired =>
    obtain ⟨_, _, _, _, _, _, rfl⟩ := count_quantum_frame h
    exact ⟨fun _ => rfl, fun _ => rfl, fun _ => rfl⟩
  | manageMemory =>
    obtain ⟨_, _, _, _, _, _, _, _, rfl⟩ := manage_memory_frame h
    exact ⟨fun _ => rfl, fun _ => rfl, fun hne => absurd rfl hne⟩
  | resolvePageFault i =>
    obtain ⟨p, -, h⟩ := Option.bind_eq_some_iff.mp h
    obtain ⟨_, _, _, rfl⟩ := resolve_page_fault_frame h
    exact ⟨fun _ => rfl, fun _ => rfl, fun _ => rfl⟩
  | simulateIo i =>
    obtain ⟨d, -, h⟩ := Option.bind_eq_some_iff.mp h
    obtain ⟨_, _, _, _, rfl⟩ := simulate_io_default_frame h
    exact ⟨fun _ => rfl, fun _ => rfl, fun _ => rfl⟩
  | processDispatch answers =>
    obtain ⟨_, _, _, _, _, _, _, rfl⟩ := process_dispatch_frame h
    exact ⟨fun _ => rfl, fun _ => rfl, fun _ => rfl⟩
  | processInterrupt =>
    obtain ⟨_, _, -, rfl⟩ := process_interrupt_cases h
    exact ⟨fun _ => rfl, fun _ => rfl, fun _ => rfl⟩
  | memoria segments =>
    obtain ⟨_, _, -, rfl⟩ := memoria_cases h
    exact ⟨fun _ => rfl, fun _ => rfl, fun _ => rfl⟩

theorem set_keeps {α β : Type*} (f : α → β) {l : List α} {i j : ℕ} {a b b' : α}
    (ha : l[i]? = some a) (hb : l[j]? = some b) (hsame : j ≠ i ∨ f b' = f b) :
    ∃ a', (l.set j b')[i]? = some a' ∧ f a' = f a := by
  by_cases hij : j = i
  · subst hij
    obtain rfl := Option.some.inj (ha.symm.trans hb)
    exact ⟨b', List.getElem?_set_self (List.getElem?_eq_some_iff.mp ha).1, hsame.resolve_left (by simp)⟩
  · exact ⟨a, by rw [List.getElem?_set_ne hij, ha], rfl⟩

/-- A message to a console leaves the thread of the kernel where it is. -/
theorem send_to_console_keeps {i : ℕ} {c : Console} (hc : s.consoles[i]? = some c)
    (clientSocket : ℤ) (message : ConsoleMessage) :
    ∃ c', (sendToConsole s clientSocket message).consoles[i]? = some c' ∧ c'.thread = c.thread := by
  rcases send_to_console_consoles s clientSocket message with hsame | ⟨j, d, hd, hset⟩
  · exact ⟨c, by rw [hsame, hc], rfl⟩
  · rw [hset]
    exact set_keeps Console.thread hc hd (Or.inr rfl)

theorem manage_dispatch_keeps {i : ℕ} {c : Console} (hc : s.consoles[i]? = some c)
    (h : manageDispatch cfg s = some t) : ∃ c', t.consoles[i]? = some c' ∧ c'.thread = c.thread := by
  cases hthread : s.threadDispatch with
  | sendConsole package =>
    simp only [manageDispatch, hthread, Option.some.injEq] at h
    subst h
    exact send_to_console_keeps hc _ _
  | sendEnd package =>
    cases package
    all_goals
      simp only [manageDispatch, hthread, Option.some.injEq] at h
      subst h
      exact send_to_console_keeps hc _ _
  | _ =>
    simp only [manageDispatch, hthread] at h
    repeat' split at h
    all_goals simp only [Option.some.injEq, reduceCtorEq] at h
    all_goals
      subst h
      exact ⟨c, hc, rfl⟩

/-- The thread of a console is moved by itself alone. -/
theorem step_console_thread {e : Event} {i : ℕ} {c : Console} (hc : s.consoles[i]? = some c)
    (hne : thread e ≠ .receiveConsole i) (h : step cfg s e = some t) :
    ∃ c', t.consoles[i]? = some c' ∧ c'.thread = c.thread := by
  cases e with
  | connect instructions segments =>
    obtain rfl := Option.some.inj h
    exact ⟨c, by rw [connect, List.getElem?_append_left (List.getElem?_eq_some_iff.mp hc).1, hc], rfl⟩
  | console j value =>
    obtain ⟨d, hd, h⟩ := Option.bind_eq_some_iff.mp h
    obtain ⟨_, _, _, _, -, rfl⟩ := consola_frame h
    exact set_keeps Console.thread hc hd (Or.inr rfl)
  | receiveConsole j =>
    obtain ⟨d, hd, h⟩ := Option.bind_eq_some_iff.mp h
    obtain ⟨_, _, _, _, _, _, _, _, _, _, _, _, rfl⟩ := receive_console_frame h
    exact set_keeps Console.thread hc hd (Or.inl fun hij => hne (by rw [thread, hij]))
  | scheduleNextToRunning =>
    obtain ⟨_, _, _, _, _, _, _, _, _, _, _, rfl⟩ := schedule_next_to_running_frame h
    exact ⟨c, hc, rfl⟩
  | manageDispatch => exact manage_dispatch_keeps hc h
  | manageInterrupt =>
    obtain ⟨_, _, _, _, rfl⟩ := manage_interrupt_frame h
    exact ⟨c, hc, rfl⟩
  | countQuantum expired =>
    obtain ⟨_, _, _, _, _, _, rfl⟩ := count_quantum_frame h
    exact ⟨c, hc, rfl⟩
  | manageMemory =>
    obtain ⟨_, _, _, _, _, _, _, _, rfl⟩ := manage_memory_frame h
    exact ⟨c, hc, rfl⟩
  | resolvePageFault j =>
    obtain ⟨p, -, h⟩ := Option.bind_eq_some_iff.mp h
    obtain ⟨_, _, _, rfl⟩ := resolve_page_fault_frame h
    exact ⟨c, hc, rfl⟩
  | simulateIo j =>
    obtain ⟨d, -, h⟩ := Option.bind_eq_some_iff.mp h
    obtain ⟨_, _, _, _, rfl⟩ := simulate_io_default_frame h
    exact ⟨c, hc, rfl⟩
  | processDispatch answers =>
    obtain ⟨_, _, _, _, _, _, _, rfl⟩ := process_dispatch_frame h
    exact ⟨c, hc, rfl⟩
  | processInterrupt =>
    obtain ⟨_, _, -, rfl⟩ := process_interrupt_cases h
    exact ⟨c, hc, rfl⟩
  | memoria segments =>
    obtain ⟨_, _, -, rfl⟩ := memoria_cases h
    exact ⟨c, hc, rfl⟩

theorem manage_dispatch_device {i : ℕ} {d : Device} (hd : s.devices[i]? = some d)
    (h : manageDispatch cfg s = some t) : ∃ d', t.devices[i]? = some d' ∧ d'.thread = d.thread := by
  cases hthread : s.threadDispatch with
  | addTime pcb device parameter =>
    obtain ⟨j, d', -, hd', rfl⟩ := add_time_some hthread h
    exact set_keeps Device.thread hd hd' (Or.inr rfl)
  | addProcess pcb j =>
    obtain ⟨d', hd', rfl⟩ := add_process_some hthread h
    exact set_keeps Device.thread hd hd' (Or.inr rfl)
  | postDevice j =>
    obtain ⟨d', hd', rfl⟩ := post_device_some hthread h
    exact set_keeps Device.thread hd hd' (Or.inr rfl)
  | _ =>
    have hdevices := (manage_dispatch_idle (by simp [hthread]) (by simp [hthread])
      (by simp [hthread]) h).1
    exact ⟨d, by rw [hdevices, hd], rfl⟩

/-- The thread of a device is moved by itself alone. -/
theorem step_device_thread {e : Event} {i : ℕ} {d : Device} (hd : s.devices[i]? = some d)
    (hne : thread e ≠ .device i) (h : step cfg s e = some t) :
    ∃ d', t.devices[i]? = some d' ∧ d'.thread = d.thread := by
  by_cases hdispatch : e = .manageDispatch
  · subst hdispatch
    exact manage_dispatch_device hd h
  by_cases hdevice : ∃ j, e = .simulateIo j
  · obtain ⟨j, rfl⟩ := hdevice
    obtain ⟨d', hd', h⟩ := Option.bind_eq_some_iff.mp h
    obtain ⟨_, hset, -⟩ := simulate_io_sets h
    rw [hset]
    exact set_keeps Device.thread hd hd' (Or.inl fun hij => hne (by rw [thread, hij]))
  · have hdevices := (step_devices_kept hdispatch (fun j hj => hdevice ⟨j, hj⟩) h).1
    exact ⟨d, by rw [hdevices, hd], rfl⟩

/-- What a thread is about to do is its own, while the list it needs stays. -/
theorem step_waiting {e e' : Event} (h : step cfg s e = some t) (hne : thread e ≠ thread e')
    (hk : listChanged cfg s e' = some k) (hsame : contents t k = contents s k) :
    listChanged cfg t e' = some k := by
  obtain ⟨hscheduler, hdispatch, hmemory⟩ := step_threads h
  cases e' with
  | receiveConsole i =>
    obtain ⟨c, hc, hk⟩ := Option.bind_eq_some_iff.mp hk
    obtain ⟨c', hc', hthread⟩ := step_console_thread hc hne h
    simpa [listChanged, hc', hthread] using hk
  | scheduleNextToRunning =>
    have hthread := hscheduler hne
    simp only [listChanged, schedulerList, hthread] at hk ⊢
    split at hk
    · split at hk
      · split at hk
        · simp at hk
        · obtain rfl := Option.some.inj hk
          simp only [contents, Contents.pcbs.injEq] at hsame
          rw [hsame, if_neg ‹_›]
      · exact hk
    · split at hk
      · simp at hk
      · obtain rfl := Option.some.inj hk
        simp only [contents, Contents.pcbs.injEq] at hsame
        rw [hsame, if_neg ‹_›]
    · exact hk
    · simp at hk
  | manageDispatch =>
    have hthread := hdispatch hne
    have hnames := dictionary_get_names (step_device_names h)
    simpa only [listChanged, dispatchList, hthread, hnames] using hk
  | manageMemory => simpa only [listChanged, hmemory hne] using hk
  | simulateIo i =>
    obtain ⟨d, hd, hk⟩ := Option.bind_eq_some_iff.mp hk
    obtain ⟨d', hd', hthread⟩ := step_device_thread hd hne h
    simpa [listChanged, hd', hthread] using hk
  | _ => simp [listChanged] at hk

end Laws

theorem kernel_lawful (cfg : KernelConfig) : Lawful (kernelOperations cfg) where
  put_get := set_contents_same
  frame := step_contents
  waiting := step_waiting

/-- Whole steps reach the states that runs in two parts reach while no two operations on a list
overlap, and no others. -/
theorem reached_iff_divided (cfg : KernelConfig) (time : TimeVal) (s : System) :
    (∃ es, run (step cfg) (boot cfg time) es = some s) ↔
      ∃ ms c, Guarded (splitStep cfg) (ListsWhole cfg) (splitBoot cfg time) ms ∧
        run (splitStep cfg) (splitBoot cfg time) ms = some c ∧ c.whole = s := by
  constructor
  · rintro ⟨es, h⟩
    obtain ⟨hwhole, hr⟩ := undivided_run (kernel_lawful cfg) h
    exact ⟨_, _, hwhole, hr, rfl⟩
  · rintro ⟨ms, c, hwhole, hr, rfl⟩
    exact ⟨_, (parted_run (kernel_lawful cfg) (intact_nil _ _) hwhole hr).2⟩

end Geck.KernelOperations
