import Geck.KernelLaws
import Geck.CpuFlags

/-!
# The invariant of the kernel

The counts of the ledger, and what makes each thread keep them: the queue the
scheduler turned to is not empty, the copies of the head of NEW are of its
head, a package is handled by the case of its kind, the queue of a device is
made of pairs, and under FIFO nothing of the quantum moves.
-/

set_option autoImplicit false

namespace Geck.KernelInvariant
open Geck.Tallies Geck.BlockStore Geck.SharedPcb Geck.MemoryHandlers Geck.CpuExecution
open Geck.CpuFlags Geck.KernelState Geck.KernelThreads Geck.KernelFrames Geck.KernelLedger
open Geck.KernelLaws

structure Balanced (cfg : KernelConfig) (s : System) : Prop where
  stranded : 0 ≤ stranded cfg s
  cpu : cpuTokens s = 1
  schedule : scheduleTokens s = 1
  init : initTokens s = 0
  newcomers : newcomers s = 0
  degree : degreeTokens s = cfg.gradoMaxMultiprogramacion
  census : ∀ w, census w s = 0

theorem Balanced.keep {cfg : KernelConfig} {s t : System} {n : ℤ} (hb : Balanced cfg s)
    (hn : 0 ≤ n) (hk : Keeps cfg n s t) : Balanced cfg t where
  stranded := by
    have := hb.stranded
    rw [hk.stranded]
    omega
  cpu := hk.cpu.trans hb.cpu
  schedule := hk.schedule.trans hb.schedule
  init := hk.init.trans hb.init
  newcomers := hk.newcomers.trans hb.newcomers
  degree := hk.degree.trans hb.degree
  census := fun w => (hk.census w).trans (hb.census w)

/-- The scheduler turned to the second queue of FEEDBACK and will find a process there. -/
def Chooses (cfg : KernelConfig) (s : System) : Prop :=
  s.shortTermScheduler = .chooseFifo →
    cfg.algoritmoPlanificacion = .feedback ∧ s.listReadyFifo ≠ []

/-- The flags of the CPU: clear between two processes, exclusive while one runs. -/
def Flags (s : System) : Prop :=
  match s.cpuThread with
  | .receive => Clear s.cpu
  | .running _ _ => Exclusive s.cpu
  | .leaving _ _ => Exclusive s.cpu ∧ keepsRunning s.cpu = false
  | .sending _ => Clear s.cpu

def threads (s : System) : List ConsoleThread := s.consoles.map Console.thread

def initCopy : ConsoleThread → List Pcb
  | .sendInit pcb => [pcb]
  | _ => []

def pendingCopies (s : System) : List Pcb := copies s++(threads s).flatMap initCopy

/-- Every copy on its way to memory and back is of the head of NEW. -/
def Heads (s : System) : Prop :=
  ∀ pcb ∈ pendingCopies s, s.listNew.head?.map identity = some (identity pcb)

/-- Processes are numbered in the order of their creation, each for one console. -/
structure Registered (s : System) : Prop where
  numbered : s.created.map Prod.fst = (List.range s.created.length).map fun k : ℕ => (k : ℤ)+1
  counter : s.pidCounter = s.created.length+1
  sockets : ∀ e ∈ s.created, ∃ i : ℕ, i < (threads s).length ∧ e.2 = i

def Messages (s : System) : Prop := ∀ c ∈ s.consoles, ∀ message ∈ c.toConsole, IoRequest message

def Labelled : CpuPackage → Prop
  | .ioScreen _ device _ => device = "PANTALLA"
  | .ioKeyboard _ device _ => device = "TECLADO"
  | _ => True

/-- The package that `manage_dispatch` works on is of the kind its case handles. -/
def Handles : ThreadDispatch → Prop
  | .postFree package => Labelled package
  | .lockOut package => Labelled package
  | .setFlag package => Labelled package
  | .unlockOut package => Labelled package
  | .sendConsole package => IoRequest (ioMessage package)
  | thread => Fits thread

structure Packages (s : System) : Prop where
  replies : ∀ reply ∈ s.fromCpu, Labelled reply.package
  sending : ∀ reply, s.cpuThread = .sending reply → Labelled reply.package
  handles : Handles s.threadDispatch

/-- The half of a pair that the device has taken the time of. -/
def InHand : DeviceThread → List DeviceItem → Prop
  | .removeProcess _, front => ∃ pcb, front = [.process pcb]
  | _, front => front = []

/-- The half of a pair that `manage_dispatch` has added. -/
def Dangling : ThreadDispatch → ℕ → List DeviceItem → Prop
  | .addProcess _ j, i, tail => if j = i then ∃ time, tail = [.time time] else tail = []
  | _, _, tail => tail = []

def begun : DeviceThread → ℕ
  | .removeTime => 1
  | _ => 0

def unannounced : ThreadDispatch → ℕ → ℕ
  | .postDevice j, i => if j = i then 1 else 0
  | _, _ => 0

/-- The queue of a device is a list of pairs but for the two halves in progress,
and its semaphore counts the pairs not yet begun. -/
def Paired (thread : ThreadDispatch) (i : ℕ) (d : Device) : Prop :=
  ∃ (pairs : List (ℤ × Pcb)) (front tail : List DeviceItem),
    d.listProcesses = front++(pairs.flatMap fun p => [.time p.1, .process p.2])++tail ∧
      InHand d.thread front ∧ Dangling thread i tail ∧
      pairs.length = d.semDevices+begun d.thread+unannounced thread i

def Devices (s : System) : Prop :=
  ∀ i d, s.devices[i]? = some d → Paired s.threadDispatch i d

def NoInterruption : CpuPackage → Prop
  | .executeInterruption _ => False
  | _ => True

def NoQuantum : ShortTermScheduler → Prop
  | .addRunning _ timed => timed = false
  | .send _ timed => timed = false
  | .postBeggin _ => False
  | _ => True

def NoPreemption : ThreadDispatch → Prop
  | .postFree package => NoInterruption package
  | .postGrado package => NoInterruption package
  | .lockOut package => NoInterruption package
  | .setFlag package => NoInterruption package
  | .unlockOut package => NoInterruption package
  | .removeRunning package => NoInterruption package
  | .addReady _ => False
  | _ => True

/-- No quantum, no interruption and no preempted process anywhere. -/
structure Untimed (s : System) : Prop where
  scheduler : NoQuantum s.shortTermScheduler
  beggin : s.semBegginQuantum = []
  interruption : s.semInterruptionQuantum = []
  thread : s.threadInterrupt = .wait
  interrupts : s.interrupts = []
  check : s.cpu.checkInterruption = false
  sending : ∀ reply, s.cpuThread = .sending reply → NoInterruption reply.package
  replies : ∀ reply ∈ s.fromCpu, NoInterruption reply.package
  dispatch : NoPreemption s.threadDispatch

structure Sound (cfg : KernelConfig) (s : System) : Prop where
  balanced : Balanced cfg s
  chooses : Chooses cfg s
  flags : Flags s
  heads : Heads s
  registered : Registered s
  messages : Messages s
  packages : Packages s
  devices : Devices s
  untimed : cfg.algoritmoPlanificacion = .fifo → Untimed s

theorem init_device_idle {cfg : KernelConfig} {d : Device} (h : d ∈ initDeviceConfigDictionary cfg) :
    d.listProcesses = [] ∧ d.semDevices = 0 ∧ d.thread = .wait := by
  obtain ⟨i, hi⟩ := List.mem_iff_getElem?.mp h
  simp only [initDeviceConfigDictionary, List.getElem?_zipWith] at hi
  split at hi
  · simp only [Option.some.injEq] at hi
    subst hi
    exact ⟨rfl, rfl, rfl⟩
  · simp at hi

theorem boot_stranded (cfg : KernelConfig) (time : CpuTranslation.TimeVal) :
    stranded cfg (boot cfg time) = 0 := by
  have howes : total (fun d : Device => deviceOwes d.thread) (initDeviceConfigDictionary cfg) = 0 :=
    total_zero fun d hd => by simp [(init_device_idle hd).2.2]
  cases halg : cfg.algoritmoPlanificacion
  all_goals simp [stranded, readyQueues, owed, boot, howes, halg]

theorem boot_balanced (cfg : KernelConfig) (time : CpuTranslation.TimeVal) :
    Balanced cfg (boot cfg time) := by
  have hempty (w : Pcb → ℤ) : total (fun d => total w (inDevice d))
      (initDeviceConfigDictionary cfg) = 0 :=
    total_zero fun d hd => by
      obtain ⟨hlist, _, hthread⟩ := init_device_idle hd
      simp [inDevice, hlist, hthread]
  constructor
  case stranded => exact (boot_stranded cfg time).ge
  case degree => simp [degreeTokens, admitted, weight, processesAt, boot, hempty]
  case census => simp [census, admitted, weight, processesAt, boot, hempty]
  all_goals simp [cpuTokens, outstanding, scheduleTokens, initTokens, copies, newcomers, boot]

theorem boot_sound (cfg : KernelConfig) (time : CpuTranslation.TimeVal) : Sound cfg (boot cfg time) where
  balanced := boot_balanced cfg time
  chooses := by simp [Chooses, boot]
  flags := ⟨⟨rfl, rfl, rfl⟩, rfl⟩
  heads := by simp [Heads, pendingCopies, copies, threads, boot]
  registered := ⟨by simp [boot], by simp [boot], by simp [boot]⟩
  messages := by simp [Messages, boot]
  packages := ⟨by simp [boot], by simp [boot], trivial⟩
  devices := by
    intro i d hd
    obtain ⟨hlist, hsem, hthread⟩ := init_device_idle (List.mem_of_getElem? hd)
    refine ⟨[], [], [], by simp [hlist], by simp [hthread, InHand], rfl, ?_⟩
    simp [hsem, hthread, begun, unannounced, boot]
  untimed := fun _ => ⟨trivial, rfl, rfl, rfl, rfl, rfl, by simp [boot], by simp [boot], trivial⟩

section Counts
variable {cfg : KernelConfig} {s : System}

theorem owed_nonneg (s : System) : 0 ≤ owed s := by
  have hc := total_nonneg (f := fun c : Console => consoleOwes c.thread)
    (fun c => by cases h : c.thread <;> simp) s.consoles
  have hd := total_nonneg (f := fun d : Device => deviceOwes d.thread)
    (fun d => by cases h : d.thread <;> simp) s.devices
  have hdispatch : 0 ≤ dispatchOwes s.threadDispatch := by cases s.threadDispatch <;> simp
  have hmemory : 0 ≤ memoryOwes s.threadMemory := by cases s.threadMemory <;> simp
  unfold owed
  omega

/-- The token that the scheduler holds stands for a process in the ready queues. -/
theorem ready_not_empty (hb : Balanced cfg s) (h : taken s.shortTermScheduler = 1) :
    readyQueues cfg s ≠ [] := by
  intro hempty
  have := hb.stranded
  have := owed_nonneg s
  simp only [stranded, hempty, List.length_nil, h] at *
  omega

theorem idle_of_free {thread : CpuThread} (h : busy thread = 0) : thread = .receive := by
  cases thread <;> simp at h ⊢

/-- While the scheduler holds the token of the CPU, nothing is sent and nothing runs. -/
theorem holds_cpu_idle (hb : Balanced cfg s) (h : holdsCpu s.shortTermScheduler = 1) :
    s.toCpu = [] ∧ s.cpuThread = .receive ∧ s.fromCpu = [] := by
  have hcpu := hb.cpu
  have hbusy : 0 ≤ busy s.cpuThread := by cases s.cpuThread <;> simp
  have hreceived : 0 ≤ received s.threadDispatch := by cases s.threadDispatch <;> simp
  unfold cpuTokens outstanding at hcpu
  exact ⟨List.length_eq_zero_iff.mp (by omega), idle_of_free (by omega),
    List.length_eq_zero_iff.mp (by omega)⟩

/-- While the CPU is on a process, nothing else is on its way to or from it. -/
theorem busy_alone (hb : Balanced cfg s) (h : busy s.cpuThread = 1) :
    s.toCpu = [] ∧ s.fromCpu = [] := by
  have hcpu := hb.cpu
  have hholds : 0 ≤ holdsCpu s.shortTermScheduler := by cases s.shortTermScheduler <;> simp
  have hreceived : 0 ≤ received s.threadDispatch := by cases s.threadDispatch <;> simp
  unfold cpuTokens outstanding at hcpu
  exact ⟨List.length_eq_zero_iff.mp (by omega), List.length_eq_zero_iff.mp (by omega)⟩

theorem new_not_empty (hb : Balanced cfg s) {c : Console} (hc : c ∈ s.consoles)
    (h : willRemove c.thread = 1) : s.listNew ≠ [] := by
  intro hempty
  have hle := le_total (f := fun c : Console => willRemove c.thread)
    (fun c => by cases h : c.thread <;> simp) hc
  have := hb.newcomers
  simp only [newcomers, hempty, List.length_nil, h] at *
  omega

/-- Only one console at a time is inside the section of `sem_schedule_ready`. -/
theorem scheduling_alone (hb : Balanced cfg s) {i j : ℕ} {c c' : Console} (hij : i ≠ j)
    (hc : s.consoles[i]? = some c) (hc' : s.consoles[j]? = some c')
    (hin : scheduling c.thread = 1) : scheduling c'.thread = 0 := by
  have hnonneg (c : Console) : 0 ≤ scheduling c.thread := by cases h : c.thread <;> simp
  have hone : total (fun c => scheduling c.thread) s.consoles ≤ 1 := by
    have := hb.schedule
    unfold scheduleTokens at this
    omega
  exact others_zero hnonneg hone hij hc hc' hin

/-- While a thread is inside the section of `sem_schedule_ready` and does not
wait for memory, no copy of the head of NEW is under way. -/
theorem no_copies (hb : Balanced cfg s) {i : ℕ} {c : Console} (hc : s.consoles[i]? = some c)
    (hin : scheduling c.thread = 1) (hwait : waitsInit c.thread = 0)
    (hcopy : initCopy c.thread = []) : pendingCopies s = [] := by
  have hothers : ∀ c' ∈ s.consoles, c' = c ∨ scheduling c'.thread = 0 := by
    intro c' hc'
    obtain ⟨j, hj⟩ := List.mem_iff_getElem?.mp hc'
    by_cases hij : i = j
    · left
      subst hij
      exact Option.some.inj (hj.symm.trans hc)
    · right
      exact scheduling_alone hb hij hc hj hin
  have hnone : ∀ c' ∈ s.consoles, waitsInit c'.thread = 0 ∧ initCopy c'.thread = [] := by
    intro c' hc'
    rcases hothers c' hc' with rfl | h0
    · exact ⟨hwait, hcopy⟩
    · cases hthread : c'.thread <;> simp [hthread, initCopy] at h0 ⊢
  refine List.append_eq_nil_iff.mpr ⟨?_, ?_⟩
  · have hinit := hb.init
    have hdone : 0 ≤ initDone s.threadMemory := by cases s.threadMemory <;> simp
    unfold initTokens at hinit
    rw [total_zero (l := s.consoles) fun c' hc' => (hnone c' hc').1] at hinit
    apply List.length_eq_zero_iff.mp
    omega
  · simp only [threads, List.flatMap_map, List.flatMap_eq_nil_iff]
    exact fun c' hc' => (hnone c' hc').2

/-- A process anywhere was created, for the console it names. -/
theorem identity_created (hb : Balanced cfg s) {place : Place} {pcb : Pcb}
    (h : pcb ∈ processesAt s place) : identity pcb ∈ s.created := by
  let w : ℤ × ℤ → ℤ := fun e => if e = identity pcb then 1 else 0
  have hnonneg (e : ℤ × ℤ) : 0 ≤ w e := by
    simp only [w]
    split <;> simp
  have hplaces (place : Place) : 0 ≤ weight w s place := total_nonneg (fun p => hnonneg _) _
  have hplace : 1 ≤ weight w s place := by
    have := le_total (f := fun p => w (identity p)) (fun p => hnonneg _) h
    simpa [w, weight] using this
  have hcreated : total w s.created ≠ 0 := by
    have hcensus := hb.census w
    have := hplaces .new
    have := hplaces .ready
    have := hplaces .cpu
    have := hplaces .console
    have := hplaces .device
    have := hplaces .pageFault
    have := hplaces .exit
    simp only [census, admitted] at hcensus
    cases place <;> omega
  obtain ⟨e, he, hw⟩ := exists_of_total_ne_zero hcreated
  obtain rfl : e = identity pcb := by
    by_contra hne
    exact hw (by simp [w, hne])
  exact he

/-- The console of a process anywhere is there. -/
theorem socket_found (hb : Balanced cfg s) (hr : Registered s) {place : Place} {pcb : Pcb}
    (h : pcb ∈ processesAt s place) : ∃ c, listGet s.consoles pcb.clientSocket = some c := by
  obtain ⟨i, hi, hsocket⟩ := hr.sockets _ (identity_created hb h)
  simp only [threads, List.length_map] at hi
  refine ⟨s.consoles[i], ?_⟩
  rw [show pcb.clientSocket = (i : ℤ) from hsocket, list_get_nat]
  exact List.getElem?_eq_getElem hi

end Counts

section Laws
variable {cfg : KernelConfig} {s t : System}

theorem handles_fits {thread : ThreadDispatch} (h : Handles thread) : Fits thread := by
  cases thread <;> trivial

theorem head_of_copy (hs : Heads s) {pcb : Pcb} (h : pcb ∈ pendingCopies s) :
    ∃ head rest, s.listNew = head::rest ∧ identity pcb = identity head := by
  have hhead := hs pcb h
  cases hn : s.listNew with
  | nil => simp [hn] at hhead
  | cons head rest =>
    simp only [hn, List.head?_cons, Option.map_some, Option.some.injEq] at hhead
    exact ⟨head, rest, rfl, hhead.symm⟩

theorem leaving_flags {dispatch : Dispatch} {pcb : Pcb} (hs : Flags s)
    (hthread : s.cpuThread = .leaving dispatch pcb) :
    ∃ cpu package, leaveProcess s.cpu pcb = (cpu, some package) ∧ Clear cpu ∧
      cpu.checkInterruption = false := by
  have h : Exclusive s.cpu ∧ keepsRunning s.cpu = false := by
    simpa only [Flags, hthread] using hs
  exact leave_process_clears h.1 h.2 pcb

/-- The step is not an enqueue that no post follows. -/
def Posts (cfg : KernelConfig) (s : System) : Event → Prop
  | .manageMemory => ¬Unposted cfg s
  | _ => True

/-- The law of a step: it keeps the ledger, but for the enqueue without a post. -/
theorem step_keeps {e : Event} (hs : Sound cfg s) (h : step cfg s e = some t) :
    (Posts cfg s e ∧ Keeps cfg 0 s t) ∨ (¬Posts cfg s e ∧ Keeps cfg 1 s t) := by
  cases e with
  | manageMemory =>
    by_cases hunposted : Unposted cfg s
    · exact Or.inr ⟨fun hposts => hposts hunposted, manage_memory_unposted hunposted h⟩
    · refine Or.inl ⟨hunposted, manage_memory_keeps (fun pcb hthread => ?_) hunposted h⟩
      exact head_of_copy hs.heads (by simp [pendingCopies, copies, hthread])
  | connect instructions segments =>
    simp only [step, Option.some.injEq] at h
    subst h
    exact Or.inl ⟨trivial, connect_keeps cfg s instructions segments⟩
  | console i value =>
    obtain ⟨c, hc, h⟩ := Option.bind_eq_some_iff.mp h
    exact Or.inl ⟨trivial, consola_keeps hc (hs.messages c (List.mem_of_getElem? hc)) h⟩
  | receiveConsole i =>
    obtain ⟨c, hc, h⟩ := Option.bind_eq_some_iff.mp h
    refine Or.inl ⟨trivial, receive_console_keeps hc (fun hthread => ?_) h⟩
    exact new_not_empty hs.balanced (List.mem_of_getElem? hc) (by simp [hthread])
  | scheduleNextToRunning =>
    exact Or.inl ⟨trivial, schedule_next_to_running_keeps (fun hthread => (hs.chooses hthread).2)
      (fun hthread => (hs.chooses hthread).1) h⟩
  | manageDispatch =>
    refine Or.inl ⟨trivial, manage_dispatch_keeps (handles_fits hs.packages.handles)
      (fun pcb hpcb => ?_) (fun pcb hthread halg => ?_) h⟩
    · have hplace : pcb ∈ processesAt s .cpu := List.mem_append_right _ hpcb
      exact socket_found hs.balanced hs.registered hplace
    · have := (hs.untimed halg).dispatch
      rwa [hthread] at this
  | manageInterrupt => exact Or.inl ⟨trivial, manage_interrupt_keeps cfg h⟩
  | countQuantum expired => exact Or.inl ⟨trivial, count_quantum_keeps h⟩
  | resolvePageFault i =>
    obtain ⟨p, hp, h⟩ := Option.bind_eq_some_iff.mp h
    exact Or.inl ⟨trivial, resolve_page_fault_keeps cfg hp h⟩
  | simulateIo i =>
    obtain ⟨d, hd, h⟩ := Option.bind_eq_some_iff.mp h
    exact Or.inl ⟨trivial, simulate_io_default_keeps hd h⟩
  | processDispatch answers =>
    refine Or.inl ⟨trivial, process_dispatch_keeps (fun dispatch pcb hthread => ?_) h⟩
    obtain ⟨cpu, package, hpackage, _⟩ := leaving_flags hs.flags hthread
    exact ⟨cpu, package, hpackage⟩
  | processInterrupt => exact Or.inl ⟨trivial, process_interrupt_keeps cfg h⟩
  | memoria segments => exact Or.inl ⟨trivial, memoria_keeps cfg h⟩

theorem step_balanced {e : Event} (hs : Sound cfg s) (h : step cfg s e = some t) :
    Balanced cfg t := by
  rcases step_keeps hs h with ⟨_, hkeeps⟩ | ⟨_, hkeeps⟩
  · exact hs.balanced.keep le_rfl hkeeps
  · exact hs.balanced.keep (by omega) hkeeps

end Laws

end Geck.KernelInvariant
