import Geck.DispatchProtocol

/-!
# The work a state has still to do

Each place of a process, each message and each token is weighed by the steps it
can still cause. A step of a thread takes one from the weight; only a console
that connects, a page fault and the end of a quantum add to it.
-/

set_option autoImplicit false

namespace Geck.KernelWork
open Geck.LabelledRuns Geck.Tallies Geck.BlockStore Geck.SharedPcb Geck.MemoryHandlers
open Geck.CpuTranslation Geck.CpuExecution Geck.CpuEffects Geck.CpuFlags Geck.CpuProgress
open Geck.KernelState Geck.KernelThreads Geck.KernelFrames Geck.KernelLedger Geck.KernelLaws
open Geck.KernelInvariant Geck.KernelSoundness Geck.DispatchProtocol

/-- The longest way from one instruction of a process to its next, and once more for the page
fault that the instruction may raise. -/
def load (pcb : Pcb) : ℤ := 70*remaining pcb

@[simp] theorem load_change_pcb_state (pcb : Pcb) (status : PcbStatus) :
    load (changePcbStateTo pcb status) = load pcb := rfl

@[simp] theorem load_save_context (cpu : Cpu) (pcb : Pcb) :
    load (saveContextPcb cpu pcb) = load pcb := rfl

theorem load_nonneg (pcb : Pcb) : 0 ≤ load pcb := by
  unfold load
  omega

/-- The processes of a console in NEW are weighed by `limit`, the longest program. -/
def requestWork (limit : ℕ) : ConsoleRequest → ℤ
  | .initProcess _ _ => 25+70*limit
  | .ioScreenResponse pcb => 12+load pcb
  | .ioKeyboardResponse pcb => 12+load pcb

attribute [simp] requestWork.eq_1 requestWork.eq_2 requestWork.eq_3

def messageWork : ConsoleMessage → ℤ
  | .io package => 13+load (packagePcb package)
  | _ => 1

attribute [simp] messageWork.eq_1 messageWork.eq_2

def consoleThreadWork (limit : ℕ) : ConsoleThread → ℤ
  | .receive => 0
  | .created _ => 24+70*limit
  | .waitScheduleReady => 23
  | .waitGrado => 22
  | .testNew => 21
  | .getNew => 20
  | .sendInit _ => 19
  | .waitInit => 14
  | .removeNew => 13
  | .addReady pcb => 12+load pcb
  | .postReady => 11
  | .postScheduleReady => 1
  | .returned pcb => 11+load pcb
  | .postReturned => 10

attribute [simp] consoleThreadWork.eq_1 consoleThreadWork.eq_2 consoleThreadWork.eq_3
  consoleThreadWork.eq_4 consoleThreadWork.eq_5 consoleThreadWork.eq_6 consoleThreadWork.eq_7
  consoleThreadWork.eq_8 consoleThreadWork.eq_9 consoleThreadWork.eq_10 consoleThreadWork.eq_11
  consoleThreadWork.eq_12 consoleThreadWork.eq_13 consoleThreadWork.eq_14

def consoleWork (limit : ℕ) (c : Console) : ℤ :=
  consoleThreadWork limit c.thread+total (requestWork limit) c.toKernel+total messageWork c.toConsole

def schedulerWork : ShortTermScheduler → ℤ
  | .waitReady => 0
  | .waitCpuFree => 8
  | .choose => 7
  | .chooseFifo => 6
  | .addRunning pcb _ => 5+load pcb
  | .send pcb _ => 4+load pcb
  | .postBeggin _ => 2
  | .setUltimo _ => 1

attribute [simp] schedulerWork.eq_1 schedulerWork.eq_2 schedulerWork.eq_3 schedulerWork.eq_4
  schedulerWork.eq_5 schedulerWork.eq_6 schedulerWork.eq_7 schedulerWork.eq_8

def dispatchWork : ThreadDispatch → ℤ
  | .receive => 0
  | .postFree package => 30+load (packagePcb package)
  | .postGrado package => 29+load (packagePcb package)
  | .lockOut package => 28+load (packagePcb package)
  | .setFlag package => 27+load (packagePcb package)
  | .unlockOut package => 26+load (packagePcb package)
  | .removeRunning package => 25+load (packagePcb package)
  | .sendConsole package => 24+load (packagePcb package)
  | .addBlocked pcb _ _ => 24+load pcb
  | .addTime pcb _ _ => 20+load pcb
  | .addProcess pcb _ => 18+load pcb
  | .postDevice _ => 3
  | .addReady pcb => 24+load pcb
  | .postReady => 10
  | .addExit _ => 10
  | .sendMemory (.segFault _) => 2
  | .sendMemory _ => 4
  | .sendEnd (.segFault _) => 4
  | .sendEnd _ => 2
  | .createThread pcb _ _ => 24+load pcb

attribute [simp] dispatchWork.eq_1 dispatchWork.eq_2 dispatchWork.eq_3 dispatchWork.eq_4
  dispatchWork.eq_5 dispatchWork.eq_6 dispatchWork.eq_7 dispatchWork.eq_8 dispatchWork.eq_9
  dispatchWork.eq_10 dispatchWork.eq_11 dispatchWork.eq_12 dispatchWork.eq_13 dispatchWork.eq_14
  dispatchWork.eq_15 dispatchWork.eq_16 dispatchWork.eq_17 dispatchWork.eq_18 dispatchWork.eq_19
  dispatchWork.eq_20

def interruptWork : ThreadInterrupt → ℤ
  | .wait => 0
  | .look _ => 38
  | .send _ => 37
  | .postFinish => 1

attribute [simp] interruptWork.eq_1 interruptWork.eq_2 interruptWork.eq_3 interruptWork.eq_4

def memoryWork : ThreadMemory → ℤ
  | .receive => 0
  | .replaceNew _ => 2
  | .postInit => 1
  | .addReady pcb => 12+load pcb
  | .postReady => 11
  | .unlockPageFault => 1

attribute [simp] memoryWork.eq_1 memoryWork.eq_2 memoryWork.eq_3 memoryWork.eq_4 memoryWork.eq_5
  memoryWork.eq_6

def pageFaultWork : PageFaultThread → ℤ
  | .lock pcb _ _ => 16+load pcb
  | .send pcb _ _ => 15+load pcb
  | .finished => 0

attribute [simp] pageFaultWork.eq_1 pageFaultWork.eq_2 pageFaultWork.eq_3

def toMemoryWork : KernelRequest → ℤ
  | .initProcessStructuresMemory _ => 4
  | .requestPageFault pcb _ _ => 14+load pcb
  | .endStructures _ => 1

attribute [simp] toMemoryWork.eq_1 toMemoryWork.eq_2 toMemoryWork.eq_3

def fromMemoryWork : KernelResponse → ℤ
  | .initProcessStructuresMemoryResponse _ => 3
  | .responsePageFault pcb => 13+load pcb

attribute [simp] fromMemoryWork.eq_1 fromMemoryWork.eq_2

def itemWork : DeviceItem → ℤ
  | .time _ => 1
  | .process pcb => 11+load pcb

attribute [simp] itemWork.eq_1 itemWork.eq_2

def deviceThreadWork : DeviceThread → ℤ
  | .wait => 0
  | .removeTime => 1
  | .removeProcess _ => 1
  | .serving _ pcb => 11+load pcb
  | .postReady => 10

attribute [simp] deviceThreadWork.eq_1 deviceThreadWork.eq_2 deviceThreadWork.eq_3
  deviceThreadWork.eq_4 deviceThreadWork.eq_5

def deviceWork (d : Device) : ℤ :=
  2*d.semDevices+deviceThreadWork d.thread+total itemWork d.listProcesses

/-- The way of a process that stopped; an interruption that came early stops the next one. -/
def cpuWork (cpu : Cpu) : CpuThread → ℤ
  | .receive => if cpu.checkInterruption then 34 else 0
  | .running _ pcb => load pcb+if keepsRunning cpu then 0 else 34
  | .leaving _ pcb => 33+load pcb
  | .sending reply => 32+load (packagePcb reply.package)+if cpu.checkInterruption then 34 else 0

attribute [simp] cpuWork.eq_1 cpuWork.eq_2 cpuWork.eq_3 cpuWork.eq_4

def work (limit : ℕ) (s : System) : ℤ :=
  total (consoleWork limit) s.consoles+70*limit*s.listNew.length+
    total load (s.listReady++s.listReadyRr++s.listReadyFifo)+9*s.semProcessInReady+
    schedulerWork s.shortTermScheduler+dispatchWork s.threadDispatch+memoryWork s.threadMemory+
    interruptWork s.threadInterrupt+39*s.semInterruptionQuantum.length+35*s.interrupts.length+
    total deviceWork s.devices+total pageFaultWork s.pageFaultThreads+
    total toMemoryWork s.toMemory+total fromMemoryWork s.fromMemory+
    total (fun sent => 1+load sent.2) s.toCpu+
    total (fun reply => 31+load (packagePcb reply.package)) s.fromCpu+cpuWork s.cpu s.cpuThread

/-- A console connects. -/
def connects : Event → ℤ
  | .connect _ _ => 1
  | _ => 0

/-- The instruction that the CPU executes raises `page_fault`. -/
def faults (cfg : KernelConfig) (s : System) : Event → ℤ
  | .processDispatch answers =>
    match s.cpuThread with
    | .running _ pcb =>
      if keepsRunning s.cpu then
        match instructionCycle cfg.cpu answers s.cpu pcb with
        | some (cpu, _, _) => if cpu.pageFault then 1 else 0
        | none => 0
      else 0
    | _ => 0
  | _ => 0

/-- The instruction that the CPU executes does not raise `page_fault`. -/
def executions (cfg : KernelConfig) (s : System) : Event → ℤ
  | .processDispatch answers =>
    match s.cpuThread with
    | .running _ pcb =>
      if keepsRunning s.cpu then
        match instructionCycle cfg.cpu answers s.cpu pcb with
        | some (cpu, _, _) => if cpu.pageFault then 0 else 1
        | none => 0
      else 0
    | _ => 0
  | _ => 0

/-- The timer finds the quantum over. -/
def expires (s : System) : Event → ℤ
  | .countQuantum expired =>
    match s.switcherClock with
    | .test _ => if !s.flagOutOfRunning && expired then 1 else 0
    | _ => 0
  | _ => 0

/-- What a step adds to the work. -/
def cost (cfg : KernelConfig) (limit : ℕ) (s : System) (e : Event) : ℤ :=
  (25+70*limit)*connects e+35*faults cfg s e+39*expires s e

/-- The steps of the threads and of the consoles, but for the timer, which may poll at will. -/
def counted : Event → ℤ
  | .connect _ _ => 0
  | .countQuantum _ => 0
  | _ => 1

/-- What a step takes from the work: itself, and the fault an instruction did not raise. -/
def spent (cfg : KernelConfig) (s : System) (e : Event) : ℤ := counted e+35*executions cfg s e

attribute [local simp] consoleWork deviceWork work System.setConsole System.setDevice
  System.setPageFaultThread addToReady

section Threads
variable {cfg : KernelConfig} {limit : ℕ} {s t : System}

theorem schedule_next_to_ready_work {i : ℕ} {c : Console} (hc : s.consoles[i]? = some c)
    (hshort : ∀ pcb ∈ s.listNew, remaining pcb ≤ limit)
    (h : scheduleNextToReady cfg s i c = some t) : work limit t+1 ≤ work limit s := by
  cases hthread : c.thread with
  | waitGrado =>
    simp only [scheduleNextToReady, hthread, Option.ite_none_right_eq_some, Option.some.injEq] at h
    obtain ⟨hpos, rfl⟩ := h
    simp [total_set _ hc, hthread]
    omega
  | testNew =>
    simp only [scheduleNextToReady, hthread, Option.some.injEq] at h
    subst h
    split <;> simp [total_set _ hc, hthread] <;> omega
  | getNew =>
    cases hn : s.listNew with
    | nil => simp [scheduleNextToReady, hthread, hn] at h
    | cons pcb rest =>
      simp only [scheduleNextToReady, hthread, hn, Option.some.injEq] at h
      subst h
      simp [total_set _ hc, hthread]
      omega
  | sendInit pcb =>
    simp only [scheduleNextToReady, hthread, Option.some.injEq] at h
    subst h
    simp [total_set _ hc, hthread]
    omega
  | waitInit =>
    simp only [scheduleNextToReady, hthread, Option.ite_none_right_eq_some, Option.some.injEq] at h
    obtain ⟨hpos, rfl⟩ := h
    simp [total_set _ hc, hthread]
    omega
  | removeNew =>
    cases hn : s.listNew with
    | nil => simp [scheduleNextToReady, hthread, hn] at h
    | cons pcb rest =>
      have hload : load pcb ≤ 70*limit := by
        have := hshort pcb (by simp [hn])
        unfold load
        omega
      simp only [scheduleNextToReady, hthread, hn, Option.some.injEq] at h
      subst h
      simp [total_set _ hc, hthread, hn, mul_add]
      omega
  | addReady pcb =>
    simp only [scheduleNextToReady, hthread, Option.some.injEq] at h
    subst h
    cases halg : cfg.algoritmoPlanificacion
    all_goals
      simp [total_set _ hc, hthread, halg]
      omega
  | postReady =>
    simp only [scheduleNextToReady, hthread, Option.some.injEq] at h
    subst h
    simp [total_set _ hc, hthread]
    omega
  | _ => simp [scheduleNextToReady, hthread] at h

theorem receive_console_work {i : ℕ} {c : Console} (hc : s.consoles[i]? = some c)
    (hshort : ∀ pcb ∈ s.listNew, remaining pcb ≤ limit)
    (h : receiveConsole cfg s i c = some t) : work limit t+1 ≤ work limit s := by
  cases hthread : c.thread with
  | receive =>
    cases hk : c.toKernel with
    | nil => simp [receiveConsole, hthread, hk] at h
    | cons request rest =>
      cases request
      all_goals
        simp only [receiveConsole, hthread, hk, Option.some.injEq] at h
        subst h
        simp [total_set _ hc, hthread, hk]
        omega
  | created pcb =>
    simp only [receiveConsole, hthread, Option.some.injEq] at h
    subst h
    simp [total_set _ hc, hthread, mul_add]
    omega
  | waitScheduleReady =>
    simp only [receiveConsole, hthread, Option.ite_none_right_eq_some, Option.some.injEq] at h
    obtain ⟨hpos, rfl⟩ := h
    simp [total_set _ hc, hthread]
    omega
  | postScheduleReady =>
    simp only [receiveConsole, hthread, Option.some.injEq] at h
    subst h
    simp [total_set _ hc, hthread]
    omega
  | returned pcb =>
    simp only [receiveConsole, hthread, Option.some.injEq] at h
    subst h
    cases halg : cfg.algoritmoPlanificacion
    all_goals
      simp [total_set _ hc, hthread, halg]
      omega
  | postReturned =>
    simp only [receiveConsole, hthread, Option.some.injEq] at h
    subst h
    simp [total_set _ hc, hthread]
    omega
  | _ =>
    refine schedule_next_to_ready_work hc hshort (?_ : scheduleNextToReady cfg s i c = some t)
    simpa only [receiveConsole, hthread] using h

theorem consola_work {i : ℕ} {c : Console} {value : UInt32} (hc : s.consoles[i]? = some c)
    (h : consola s i c value = some t) : work limit t+1 ≤ work limit s := by
  cases hend : c.ended with
  | true => simp [consola, hend] at h
  | false =>
  cases hk : c.toConsole with
  | nil => simp [consola, hend, hk] at h
  | cons message rest =>
  cases message with
  | io package =>
    have := load_nonneg (packagePcb package)
    cases package
    all_goals
      simp only [consola, hend, hk, Bool.false_eq_true, if_false, Option.some.injEq] at h
      subst h
      simp [total_set _ hc, hk, load, remaining] at this ⊢
      omega
  | endConsole | endConsoleSegFault =>
    simp only [consola, hend, hk, Bool.false_eq_true, if_false, Option.some.injEq] at h
    subst h
    simp [total_set _ hc, hk]
    omega

theorem schedule_next_to_running_work (h : scheduleNextToRunning cfg s = some t) :
    work limit t+1 ≤ work limit s := by
  cases hthread : s.shortTermScheduler with
  | waitReady =>
    simp only [scheduleNextToRunning, hthread, Option.ite_none_right_eq_some, Option.some.injEq] at h
    obtain ⟨hpos, rfl⟩ := h
    simp [hthread]
    omega
  | waitCpuFree =>
    simp only [scheduleNextToRunning, hthread, Option.ite_none_right_eq_some, Option.some.injEq] at h
    obtain ⟨hpos, rfl⟩ := h
    simp [hthread]
  | choose =>
    cases halg : cfg.algoritmoPlanificacion with
    | fifo | rr =>
      cases hq : s.listReady with
      | nil => simp [scheduleNextToRunning, hthread, halg, hq] at h
      | cons pcb rest =>
        simp only [scheduleNextToRunning, hthread, halg, hq, Option.some.injEq] at h
        subst h
        simp [hthread, hq]
        omega
    | feedback =>
      cases hq : s.listReadyRr with
      | nil =>
        simp only [scheduleNextToRunning, hthread, halg, hq, Option.some.injEq] at h
        subst h
        simp [hthread, hq]
      | cons pcb rest =>
        simp only [scheduleNextToRunning, hthread, halg, hq, Option.some.injEq] at h
        subst h
        simp [hthread, hq]
        omega
  | chooseFifo =>
    cases hq : s.listReadyFifo with
    | nil =>
      simp only [scheduleNextToRunning, hthread, hq, Option.some.injEq] at h
      subst h
      simp [hthread, hq]
    | cons pcb rest =>
      simp only [scheduleNextToRunning, hthread, hq, Option.some.injEq] at h
      subst h
      simp [hthread, hq]
      omega
  | send pcb timed =>
    simp only [scheduleNextToRunning, hthread, Option.some.injEq] at h
    subst h
    cases timed <;> simp [hthread] <;> omega
  | addRunning pcb timed | postBeggin dispatch | setUltimo timed =>
    simp only [scheduleNextToRunning, hthread, Option.some.injEq] at h
    subst h
    simp [hthread]

/-- A message to a console, from a thread that goes on to `next`. -/
theorem sent_work (clientSocket : ℤ) (message : ConsoleMessage) (next : ThreadDispatch) :
    work limit { sendToConsole s clientSocket message with threadDispatch := next } ≤
      work limit s-dispatchWork s.threadDispatch+dispatchWork next+messageWork message := by
  have hnonneg : 0 ≤ messageWork message := by
    cases message with
    | io package =>
      have := load_nonneg (packagePcb package)
      simp only [messageWork]
      omega
    | _ => simp
  unfold sendToConsole
  split
  · simp
    omega
  · next c hc =>
    simp [total_set _ (list_get_some hc).2]
    omega

theorem io_message_work (package : CpuPackage) :
    messageWork (ioMessage package) = 13+load (packagePcb package) := by
  cases package with
  | ioScreen pcb device parameter | ioKeyboard pcb device parameter =>
    simp only [ioMessage, messageWork, send_pcb_io_package_pcb]
    rfl
  | _ => rfl

theorem manage_dispatch_work (h : manageDispatch cfg s = some t) : work limit t+1 ≤ work limit s := by
  cases hthread : s.threadDispatch with
  | receive =>
    cases hr : s.fromCpu with
    | nil => simp [manageDispatch, hthread, hr] at h
    | cons reply rest =>
      simp only [manageDispatch, hthread, hr, Option.some.injEq] at h
      subst h
      simp [hthread, hr]
      omega
  | postFree package =>
    simp only [manageDispatch, hthread, Option.some.injEq] at h
    subst h
    cases package <;> simp [hthread, afterFree]
  | lockOut package =>
    simp only [manageDispatch, hthread, Option.ite_none_left_eq_some, Option.some.injEq] at h
    obtain ⟨-, rfl⟩ := h
    simp [hthread]
  | setFlag package =>
    cases hu : s.ultimo with
    | none => simp [manageDispatch, hthread, hu] at h
    | some u =>
      simp only [manageDispatch, hthread, hu, Option.some.injEq] at h
      subst h
      simp [hthread]
  | unlockOut package =>
    simp only [manageDispatch, hthread, Option.some.injEq] at h
    subst h
    cases package <;> simp [hthread, afterFlag]
  | sendConsole package =>
    simp only [manageDispatch, hthread, Option.some.injEq] at h
    subst h
    refine (Int.add_le_add_right (sent_work _ _ _) 1).trans ?_
    rw [io_message_work, hthread]
    simp only [dispatchWork]
    omega
  | sendEnd package =>
    cases package
    all_goals
      simp only [manageDispatch, hthread, Option.some.injEq] at h
      subst h
      refine (Int.add_le_add_right (sent_work _ _ _) 1).trans ?_
      rw [hthread]
      simp only [dispatchWork, messageWork]
      omega
  | addTime pcb device parameter =>
    obtain ⟨i, d, -, hd, rfl⟩ := add_time_some hthread h
    simp [hthread, total_set _ hd]
    omega
  | addProcess pcb i =>
    obtain ⟨d, hd, rfl⟩ := add_process_some hthread h
    simp [hthread, total_set _ hd]
    omega
  | postDevice i =>
    obtain ⟨d, hd, rfl⟩ := post_device_some hthread h
    simp [hthread, total_set _ hd]
    omega
  | removeRunning package =>
    simp only [manageDispatch, hthread, Option.some.injEq] at h
    subst h
    have := load_nonneg (packagePcb package)
    cases package <;> simp [hthread, afterRunning] at this ⊢ <;> omega
  | addReady pcb =>
    cases halg : cfg.algoritmoPlanificacion
    all_goals
      simp only [manageDispatch, hthread, halg, Option.some.injEq] at h
      subst h
      have := load_nonneg pcb
      simp [hthread]
      omega
  | addExit package =>
    simp only [manageDispatch, hthread, Option.some.injEq] at h
    subst h
    cases package <;> simp [hthread]
  | sendMemory package =>
    simp only [manageDispatch, hthread, Option.some.injEq] at h
    subst h
    cases package <;> simp [hthread] <;> omega
  | addBlocked pcb device parameter | postGrado package =>
    simp only [manageDispatch, hthread, Option.some.injEq] at h
    subst h
    simp [hthread]
  | postReady | createThread pcb segment page =>
    simp only [manageDispatch, hthread, Option.some.injEq] at h
    subst h
    simp [hthread]
    omega

theorem manage_interrupt_work (h : manageInterrupt s = some t) : work limit t+1 ≤ work limit s := by
  cases hthread : s.threadInterrupt with
  | wait =>
    cases hq : s.semInterruptionQuantum with
    | nil => simp [manageInterrupt, hthread, hq] at h
    | cons dispatch rest =>
      simp only [manageInterrupt, hthread, hq, Option.some.injEq] at h
      subst h
      simp [hthread, hq]
      omega
  | look dispatch =>
    simp only [manageInterrupt, hthread, Option.some.injEq] at h
    subst h
    split <;> simp [hthread]
  | send dispatch =>
    simp only [manageInterrupt, hthread, Option.some.injEq] at h
    subst h
    simp [hthread]
    omega
  | postFinish =>
    simp only [manageInterrupt, hthread, Option.some.injEq] at h
    subst h
    simp [hthread]

theorem count_quantum_work {expired : Bool} (h : countQuantumOfRoundRobin cfg s expired = some t) :
    work limit t = work limit s+39*expires s (.countQuantum expired) := by
  unfold countQuantumOfRoundRobin at h
  repeat' split at h
  all_goals simp only [Option.some.injEq, reduceCtorEq] at h
  all_goals subst h
  all_goals simp_all [expires]
  all_goals omega

theorem manage_memory_work (h : manageMemory cfg s = some t) : work limit t+1 ≤ work limit s := by
  cases hthread : s.threadMemory with
  | receive =>
    cases hr : s.fromMemory with
    | nil => simp [manageMemory, hthread, hr] at h
    | cons response rest =>
      cases response
      all_goals
        simp only [manageMemory, hthread, hr, Option.some.injEq] at h
        subst h
        simp [hthread, hr]
        omega
  | replaceNew pcb =>
    have hlength : (listReplace s.listNew 0 pcb).length = s.listNew.length := by
      simp [listReplace]
    simp only [manageMemory, hthread, Option.some.injEq] at h
    subst h
    simp [hthread, hlength]
  | addReady pcb =>
    simp only [manageMemory, hthread, Option.some.injEq] at h
    subst h
    cases halg : cfg.algoritmoPlanificacion
    all_goals
      simp [hthread, halg]
      omega
  | postReady =>
    simp only [manageMemory, hthread, Option.some.injEq] at h
    subst h
    simp [hthread]
    omega
  | postInit | unlockPageFault =>
    simp only [manageMemory, hthread, Option.some.injEq] at h
    subst h
    simp [hthread]

theorem resolve_page_fault_work {i : ℕ} {p : PageFaultThread} (hp : s.pageFaultThreads[i]? = some p)
    (h : resolvePageFault s i p = some t) : work limit t+1 ≤ work limit s := by
  cases p with
  | lock pcb segment page =>
    simp only [resolvePageFault, Option.ite_none_left_eq_some, Option.some.injEq] at h
    obtain ⟨-, rfl⟩ := h
    simp [total_set _ hp]
    omega
  | send pcb segment page =>
    simp only [resolvePageFault, Option.some.injEq] at h
    subst h
    simp [total_set _ hp]
    omega
  | finished => simp [resolvePageFault] at h

theorem simulate_io_default_work {i : ℕ} {d : Device} (hd : s.devices[i]? = some d)
    (h : simulateIoDefault cfg s i d = some t) : work limit t+1 ≤ work limit s := by
  cases hthread : d.thread with
  | wait =>
    simp only [simulateIoDefault, hthread, Option.ite_none_right_eq_some, Option.some.injEq] at h
    obtain ⟨hpos, rfl⟩ := h
    simp [total_set _ hd, hthread]
    omega
  | removeTime =>
    cases hl : d.listProcesses with
    | nil => simp [simulateIoDefault, hthread, hl] at h
    | cons item rest =>
      cases item with
      | process pcb => simp [simulateIoDefault, hthread, hl] at h
      | time parameter =>
        simp only [simulateIoDefault, hthread, hl, Option.some.injEq] at h
        subst h
        simp [total_set _ hd, hthread, hl]
        omega
  | removeProcess time =>
    cases hl : d.listProcesses with
    | nil => simp [simulateIoDefault, hthread, hl] at h
    | cons item rest =>
      cases item with
      | time parameter => simp [simulateIoDefault, hthread, hl] at h
      | process pcb =>
        simp only [simulateIoDefault, hthread, hl, Option.some.injEq] at h
        subst h
        simp [total_set _ hd, hthread, hl]
        omega
  | serving time pcb =>
    simp only [simulateIoDefault, hthread, Option.some.injEq] at h
    subst h
    cases halg : cfg.algoritmoPlanificacion
    all_goals
      simp [total_set _ hd, hthread, halg]
      omega
  | postReady =>
    simp only [simulateIoDefault, hthread, Option.some.injEq] at h
    subst h
    simp [total_set _ hd, hthread]
    omega

theorem memoria_work {segments : List Segment} (h : memoria s segments = some t) :
    work limit t+1 ≤ work limit s := by
  obtain ⟨request, rest, hq, rfl⟩ := memoria_cases h
  cases request with
  | endStructures pcb => simp [memoryAnswer, hq]
  | _ =>
    simp [memoryAnswer, hq]
    omega

/-- A turn that does not fault leaves one instruction less. -/
theorem instruction_cycle_load {answers : Answers} {cpu cpu' : Cpu} {pcb pcb' : Pcb}
    {access : Option Access} (h : instructionCycle cfg.cpu answers cpu pcb = some (cpu', pcb', access)) :
    load pcb' = if cpu'.pageFault then load pcb else load pcb-70 := by
  simp only [instructionCycle, Option.bind_eq_bind, Option.bind_eq_some_iff] at h
  obtain ⟨line, hline, ⟨_, _⟩, _, h⟩ := h
  simp only [Option.some.injEq, Prod.mk.injEq] at h
  obtain ⟨rfl, rfl, _⟩ := h
  have hlt := (list_get_lt hline).2
  split
  · rfl
  · simp only [load, remaining, updateProgramCounter]
    omega

theorem clear_keeps {cpu : Cpu} (h : Clear cpu) : keepsRunning cpu = !cpu.checkInterruption := by
  obtain ⟨⟨hend, hio, hsegv⟩, hfault⟩ := h
  simp [keepsRunning, hend, hio, hsegv, hfault]

theorem process_dispatch_work {answers : Answers} (hs : Flags s)
    (h : processDispatch cfg s answers = some t) :
    work limit t+1+35*executions cfg s (.processDispatch answers) ≤
      work limit s+35*faults cfg s (.processDispatch answers) := by
  cases hthread : s.cpuThread with
  | receive =>
    have hclear : Clear s.cpu := by simpa only [Flags, hthread] using hs
    cases hq : s.toCpu with
    | nil => simp [processDispatch, hthread, hq] at h
    | cons sent rest =>
      have hset : Clear (setRegisters s.cpu sent.2) := hclear
      have hkeeps : keepsRunning (setRegisters s.cpu sent.2) = !s.cpu.checkInterruption :=
        clear_keeps hset
      simp only [processDispatch, hthread, hq, Option.some.injEq] at h
      subst h
      cases hcheck : s.cpu.checkInterruption
      all_goals
        simp [hthread, hq, faults, executions, hkeeps, hcheck]
        omega
  | running dispatch pcb =>
    cases hkeeps : keepsRunning s.cpu with
    | true =>
      simp only [processDispatch, hthread, hkeeps, if_true, Option.bind_eq_bind,
        Option.bind_eq_some_iff, Option.some.injEq] at h
      obtain ⟨⟨cpu, pcb', access⟩, hcycle, rfl⟩ := h
      have hload := instruction_cycle_load hcycle
      cases hfault : cpu.pageFault with
      | true =>
        have hstops : keepsRunning cpu = false := by simp [keepsRunning, hfault]
        simp [hthread, hkeeps, hload, hfault, faults, executions, hcycle, hstops]
        omega
      | false =>
        cases hnext : keepsRunning cpu with
        | true =>
          simp [hthread, hkeeps, hload, hfault, faults, executions, hcycle, hnext]
          omega
        | false =>
          simp [hthread, hkeeps, hload, hfault, faults, executions, hcycle, hnext]
          omega
    | false =>
      simp only [processDispatch, hthread, hkeeps, Bool.false_eq_true, if_false,
        Option.some.injEq] at h
      subst h
      simp [hthread, hkeeps, faults, executions]
      omega
  | leaving dispatch pcb =>
    obtain ⟨cpu, package, hpackage, -, hcheck⟩ := leaving_flags hs hthread
    have hpcb := leave_process_pcb hpackage
    simp only [processDispatch, hthread, hpackage, Option.some.injEq] at h
    subst h
    simp [hthread, hpcb, hcheck, faults, executions]
  | sending reply =>
    simp only [processDispatch, hthread, Option.some.injEq] at h
    subst h
    simp [hthread, faults, executions]
    omega

theorem process_interrupt_work (h : processInterrupt s = some t) :
    work limit t+1 ≤ work limit s := by
  obtain ⟨dispatch, rest, hq, rfl⟩ := process_interrupt_cases h
  have hstops : keepsRunning { s.cpu with checkInterruption := true } = false := by
    simp [keepsRunning]
  cases hthread : s.cpuThread with
  | leaving dispatch pcb => simp [hthread, hq]
  | _ =>
    simp [hthread, hq, hstops]
    split <;> omega

/-- The programs and the processes in NEW are no longer than `limit`. -/
structure Short (limit : ℕ) (s : System) : Prop where
  programs : ∀ c ∈ s.consoles, ∀ instructions segments,
    .initProcess instructions segments ∈ c.toKernel → instructions.length ≤ limit
  threads : ∀ c ∈ s.consoles, ∀ pcb ∈ entering c.thread++initCopy c.thread, remaining pcb ≤ limit
  new : ∀ pcb ∈ s.listNew, remaining pcb ≤ limit
  copies : ∀ pcb ∈ copies s, remaining pcb ≤ limit

def programLength : Event → ℕ
  | .connect instructions _ => instructions.length
  | _ => 0

/-- The program of a console that connects is no longer than `limit`. -/
def Brief (limit : ℕ) (_ : System) (e : Event) : Prop := programLength e ≤ limit

instance (limit : ℕ) (s : System) (e : Event) : Decidable (Brief limit s e) :=
  inferInstanceAs (Decidable (_ ≤ _))

/-- A step that moves one console. -/
theorem short_of_set (hs : Short limit s) {i : ℕ} {c c' : Console}
    (hc : s.consoles[i]? = some c) (hconsoles : t.consoles = s.consoles.set i c')
    (hprograms : ∀ instructions segments, .initProcess instructions segments ∈ c'.toKernel →
      .initProcess instructions segments ∈ c.toKernel)
    (hthread : ∀ pcb ∈ entering c'.thread++initCopy c'.thread, remaining pcb ≤ limit)
    (hnew : ∀ pcb ∈ t.listNew, remaining pcb ≤ limit)
    (hcopies : ∀ pcb ∈ KernelLedger.copies t, remaining pcb ≤ limit) : Short limit t := by
  refine ⟨fun d hd instructions segments hmem => ?_, fun d hd pcb hpcb => ?_, hnew, hcopies⟩
  · rw [hconsoles] at hd
    rcases List.mem_or_eq_of_mem_set hd with hold | rfl
    · exact hs.programs d hold instructions segments hmem
    · exact hs.programs c (List.mem_of_getElem? hc) instructions segments
        (hprograms instructions segments hmem)
  · rw [hconsoles] at hd
    rcases List.mem_or_eq_of_mem_set hd with hold | rfl
    · exact hs.threads d hold pcb hpcb
    · exact hthread pcb hpcb

theorem short_of_same (hs : Short limit s) (hconsoles : t.consoles = s.consoles)
    (hnew : t.listNew = s.listNew) (hcopies : KernelLedger.copies t = KernelLedger.copies s) :
    Short limit t :=
  ⟨by rw [hconsoles]; exact hs.programs, by rw [hconsoles]; exact hs.threads,
    by rw [hnew]; exact hs.new, by rw [hcopies]; exact hs.copies⟩

theorem receive_console_short (hs : Short limit s) {i : ℕ} {c : Console}
    (hc : s.consoles[i]? = some c) (h : receiveConsole cfg s i c = some t) : Short limit t := by
  have hmem := List.mem_of_getElem? hc
  have hthread := hs.threads c hmem
  have hcopies := hs.copies
  cases hat : c.thread with
  | receive =>
    cases hk : c.toKernel with
    | nil => simp [receiveConsole, hat, hk] at h
    | cons request rest =>
      cases request with
      | initProcess instructions segments =>
        have hlength := hs.programs c hmem instructions segments (by simp [hk])
        simp only [receiveConsole, hat, hk, Option.some.injEq] at h
        subst h
        refine short_of_set hs hc rfl
          (fun _ _ hm => by rw [hk]; exact List.mem_cons_of_mem _ hm) (fun pcb hpcb => ?_) hs.new hs.copies
        obtain rfl : pcb = pcbCreate instructions i s.pidCounter segments := by
          simpa [initCopy] using hpcb
        simpa [remaining, pcbCreate] using hlength
      | ioScreenResponse pcb | ioKeyboardResponse pcb =>
        simp only [receiveConsole, hat, hk, Option.some.injEq] at h
        subst h
        exact short_of_set hs hc rfl
          (fun _ _ hm => by rw [hk]; exact List.mem_cons_of_mem _ hm) (by simp [initCopy]) hs.new hs.copies
  | created pcb =>
    simp only [receiveConsole, hat, Option.some.injEq] at h
    subst h
    refine short_of_set hs hc rfl (fun _ _ hm => hm) (by simp [initCopy]) (fun p hp => ?_) hs.copies
    rcases List.mem_append.mp hp with hold | hnew
    · exact hs.new p hold
    · obtain rfl := List.mem_singleton.mp hnew
      exact hthread pcb (by simp [hat])
  | getNew =>
    cases hn : s.listNew with
    | nil => simp [receiveConsole, scheduleNextToReady, hat, hn] at h
    | cons pcb rest =>
      simp only [receiveConsole, scheduleNextToReady, hat, hn, Option.some.injEq] at h
      subst h
      refine short_of_set hs hc rfl (fun _ _ hm => hm) (fun p hp => ?_) hs.new hs.copies
      obtain rfl : p = pcb := by simpa [initCopy] using hp
      exact hs.new p (by simp [hn])
  | sendInit pcb =>
    simp only [receiveConsole, scheduleNextToReady, hat, Option.some.injEq] at h
    subst h
    refine short_of_set hs hc rfl (fun _ _ hm => hm) (by simp [initCopy]) hs.new (fun p hp => ?_)
    simp only [KernelLedger.copies, System.setConsole, List.flatMap_append, List.flatMap_singleton,
      initRequest, List.mem_append, List.mem_singleton] at hp
    rcases hp with ((hp | rfl) | hp) | hp
    · exact hcopies p (by simp only [KernelLedger.copies, List.mem_append]; tauto)
    · exact hthread p (by simp [hat, initCopy])
    · exact hcopies p (by simp only [KernelLedger.copies, List.mem_append]; tauto)
    · exact hcopies p (by simp only [KernelLedger.copies, List.mem_append]; tauto)
  | removeNew =>
    cases hn : s.listNew with
    | nil => simp [receiveConsole, scheduleNextToReady, hat, hn] at h
    | cons pcb rest =>
      simp only [receiveConsole, scheduleNextToReady, hat, hn, Option.some.injEq] at h
      subst h
      exact short_of_set hs hc rfl (fun _ _ hm => hm) (by simp [initCopy])
        (fun p hp => hs.new p (by simp only [hn, List.mem_cons]; exact Or.inr hp)) hs.copies
  | _ =>
    simp only [receiveConsole, scheduleNextToReady, addToReady, hat] at h
    repeat' split at h
    all_goals simp only [Option.some.injEq, reduceCtorEq] at h
    all_goals subst h
    all_goals exact short_of_set hs hc rfl (fun _ _ hm => hm) (by simp [initCopy]) hs.new hs.copies

theorem consola_short (hs : Short limit s) {i : ℕ} {c : Console} {value : UInt32}
    (hc : s.consoles[i]? = some c) (h : consola s i c value = some t) : Short limit t := by
  have hthread := hs.threads c (List.mem_of_getElem? hc)
  unfold consola at h
  repeat' split at h
  all_goals simp only [Option.some.injEq, reduceCtorEq] at h
  all_goals subst h
  all_goals exact short_of_set hs hc rfl (by simp) hthread hs.new hs.copies

/-- A message to a console is no program. -/
theorem sent_short (hs : Short limit s) (clientSocket : ℤ) (message : ConsoleMessage) :
    Short limit (sendToConsole s clientSocket message) := by
  unfold sendToConsole
  split
  · exact hs
  · next c hc =>
    have hi := (list_get_some hc).2
    exact short_of_set hs hi rfl (fun _ _ hm => hm) (hs.threads c (List.mem_of_getElem? hi))
      hs.new hs.copies

theorem manage_dispatch_short (hs : Short limit s) (h : manageDispatch cfg s = some t) :
    Short limit t := by
  have hsent := sent_short hs
  unfold manageDispatch at h
  repeat' split at h
  all_goals simp only [Option.some.injEq, reduceCtorEq] at h
  all_goals subst h
  all_goals first
    | exact short_of_same hs rfl rfl rfl
    | exact short_of_same (hsent _ _) rfl rfl rfl
    | exact short_of_same hs rfl rfl (by simp [KernelLedger.copies])

theorem manage_memory_short (hs : Short limit s) (h : manageMemory cfg s = some t) :
    Short limit t := by
  have hcopies := hs.copies
  cases hthread : s.threadMemory with
  | receive =>
    cases hr : s.fromMemory with
    | nil => simp [manageMemory, hthread, hr] at h
    | cons response rest =>
      cases response
      all_goals
        simp only [manageMemory, hthread, hr, Option.some.injEq] at h
        subst h
        refine ⟨hs.programs, hs.threads, hs.new, fun p hp => hcopies p ?_⟩
        simp only [KernelLedger.copies, hr, hthread, List.flatMap_cons, initResponse, replacement,
          List.mem_append, List.mem_singleton, List.not_mem_nil] at hp ⊢
        tauto
  | replaceNew pcb =>
    simp only [manageMemory, hthread, Option.some.injEq] at h
    subst h
    refine ⟨hs.programs, hs.threads, fun p hp => ?_, fun p hp => hcopies p ?_⟩
    · simp only [listReplace, le_refl, if_true] at hp
      rcases List.mem_or_eq_of_mem_set hp with hold | rfl
      · exact hs.new p hold
      · exact hcopies p (by simp [KernelLedger.copies, hthread])
    · simp only [KernelLedger.copies, hthread, replacement, List.mem_append,
        List.not_mem_nil] at hp ⊢
      tauto
  | postInit | addReady pcb | postReady | unlockPageFault =>
    simp only [manageMemory, addToReady, hthread, Option.some.injEq] at h
    repeat' split at h
    all_goals
      subst h
      exact short_of_same hs rfl rfl (by simp [KernelLedger.copies, hthread])

theorem memoria_short (hs : Short limit s) {segments : List Segment}
    (h : memoria s segments = some t) : Short limit t := by
  have hcopies := hs.copies
  obtain ⟨request, rest, hq, rfl⟩ := memoria_cases h
  refine ⟨hs.programs, hs.threads, hs.new, fun p hp => ?_⟩
  cases request with
  | initProcessStructuresMemory pcb =>
    have hpcb : remaining pcb ≤ limit := hcopies pcb (by simp [KernelLedger.copies, hq])
    simp only [KernelLedger.copies, memoryAnswer, List.flatMap_append, List.flatMap_singleton,
      initResponse, List.mem_append, List.mem_singleton] at hp
    rcases hp with (hp | hp | rfl) | hp
    · exact hcopies p (by simp [KernelLedger.copies, hq, hp])
    · exact hcopies p (by simp only [KernelLedger.copies, List.mem_append]; tauto)
    · exact hpcb
    · exact hcopies p (by simp only [KernelLedger.copies, List.mem_append]; tauto)
  | requestPageFault pcb segment page | endStructures pcb =>
    exact hcopies p (by simpa [KernelLedger.copies, memoryAnswer, hq] using hp)

theorem step_short (hs : Short limit s) {e : Event} (hbrief : Brief limit s e)
    (h : step cfg s e = some t) : Short limit t := by
  cases e with
  | connect instructions segments =>
    obtain rfl := Option.some.inj h
    refine ⟨fun c hc program data hmem => ?_, fun c hc pcb hpcb => ?_, hs.new, hs.copies⟩
    · rcases List.mem_append.mp hc with hold | hnew
      · exact hs.programs c hold program data hmem
      · obtain rfl := List.mem_singleton.mp hnew
        obtain ⟨rfl, -⟩ : program = instructions ∧ data = segments := by simpa using hmem
        exact hbrief
    · rcases List.mem_append.mp hc with hold | hnew
      · exact hs.threads c hold pcb hpcb
      · obtain rfl := List.mem_singleton.mp hnew
        simp [initCopy] at hpcb
  | console i value =>
    obtain ⟨c, hc, h⟩ := Option.bind_eq_some_iff.mp h
    exact consola_short hs hc h
  | receiveConsole i =>
    obtain ⟨c, hc, h⟩ := Option.bind_eq_some_iff.mp h
    exact receive_console_short hs hc h
  | manageDispatch => exact manage_dispatch_short hs h
  | manageMemory => exact manage_memory_short hs h
  | memoria segments => exact memoria_short hs h
  | scheduleNextToRunning =>
    obtain ⟨_, _, _, _, _, _, _, _, _, _, _, rfl⟩ := schedule_next_to_running_frame h
    exact short_of_same hs rfl rfl rfl
  | manageInterrupt =>
    obtain ⟨_, _, _, _, rfl⟩ := manage_interrupt_frame h
    exact short_of_same hs rfl rfl rfl
  | countQuantum expired =>
    obtain ⟨_, _, _, _, _, _, rfl⟩ := count_quantum_frame h
    exact short_of_same hs rfl rfl rfl
  | resolvePageFault i =>
    obtain ⟨p, -, h⟩ := Option.bind_eq_some_iff.mp h
    have hcopies : KernelLedger.copies t = KernelLedger.copies s := by
      unfold resolvePageFault at h
      repeat' split at h
      all_goals simp only [Option.some.injEq, reduceCtorEq] at h
      all_goals subst h
      all_goals simp [KernelLedger.copies]
    obtain ⟨_, _, _, rfl⟩ := resolve_page_fault_frame h
    exact short_of_same hs rfl rfl hcopies
  | simulateIo i =>
    obtain ⟨d, -, h⟩ := Option.bind_eq_some_iff.mp h
    obtain ⟨_, _, _, _, rfl⟩ := simulate_io_default_frame h
    exact short_of_same hs rfl rfl rfl
  | processDispatch answers =>
    obtain ⟨_, _, _, _, _, _, _, rfl⟩ := process_dispatch_frame h
    exact short_of_same hs rfl rfl rfl
  | processInterrupt =>
    obtain ⟨_, _, -, rfl⟩ := process_interrupt_cases h
    exact short_of_same hs rfl rfl rfl

/-- Each step is paid for. -/
theorem step_work (hsound : Sound cfg s) (hs : Short limit s) {e : Event}
    (h : step cfg s e = some t) :
    work limit t+spent cfg s e ≤ work limit s+cost cfg limit s e := by
  cases e with
  | connect instructions segments =>
    obtain rfl := Option.some.inj h
    simp [connect, spent, counted, executions, cost, connects, faults, expires]
    omega
  | console i value =>
    obtain ⟨c, hc, h⟩ := Option.bind_eq_some_iff.mp h
    simpa [spent, counted, executions, cost, connects, faults, expires] using consola_work hc h
  | receiveConsole i =>
    obtain ⟨c, hc, h⟩ := Option.bind_eq_some_iff.mp h
    simpa [spent, counted, executions, cost, connects, faults, expires] using receive_console_work hc hs.new h
  | scheduleNextToRunning =>
    simpa [spent, counted, executions, cost, connects, faults, expires] using schedule_next_to_running_work h
  | manageDispatch =>
    simpa [spent, counted, executions, cost, connects, faults, expires] using manage_dispatch_work h
  | manageInterrupt =>
    simpa [spent, counted, executions, cost, connects, faults, expires] using manage_interrupt_work h
  | countQuantum expired =>
    have hsame : work limit t = work limit s+39*expires s (.countQuantum expired) :=
      count_quantum_work h
    simp only [spent, counted, executions, cost, connects, faults]
    omega
  | manageMemory =>
    simpa [spent, counted, executions, cost, connects, faults, expires] using manage_memory_work h
  | resolvePageFault i =>
    obtain ⟨p, hp, h⟩ := Option.bind_eq_some_iff.mp h
    simpa [spent, counted, executions, cost, connects, faults, expires] using resolve_page_fault_work hp h
  | simulateIo i =>
    obtain ⟨d, hd, h⟩ := Option.bind_eq_some_iff.mp h
    simpa [spent, counted, executions, cost, connects, faults, expires] using simulate_io_default_work hd h
  | processDispatch answers =>
    have hturn : work limit t+1+35*executions cfg s (.processDispatch answers) ≤
        work limit s+35*faults cfg s (.processDispatch answers) :=
      process_dispatch_work hsound.flags h
    simp only [spent, counted, cost, connects, expires]
    omega
  | processInterrupt =>
    simpa [spent, counted, executions, cost, connects, faults, expires] using process_interrupt_work h
  | memoria segments =>
    simpa [spent, counted, executions, cost, connects, faults, expires] using memoria_work h

end Threads

section Bound
variable {cfg : KernelConfig} {limit : ℕ} {s : System}

/-- No place, message or token weighs less than nothing. -/
theorem weights_nonneg :
    (∀ c, 0 ≤ consoleWork limit c) ∧ (∀ d, 0 ≤ deviceWork d) ∧ (∀ p, 0 ≤ pageFaultWork p) ∧
      (∀ r, 0 ≤ toMemoryWork r) ∧ (∀ r, 0 ≤ fromMemoryWork r) := by
  have hload := load_nonneg
  refine ⟨fun c => ?_, fun d => ?_, fun p => ?_, fun r => ?_, fun r => ?_⟩
  · have hthread : 0 ≤ consoleThreadWork limit c.thread := by
      cases c.thread with
      | addReady pcb | returned pcb =>
        have := hload pcb
        simp only [consoleThreadWork]
        omega
      | _ =>
        simp only [consoleThreadWork]
        omega
    have hrequests := total_nonneg (f := requestWork limit) (fun r => by
      cases r with
      | initProcess instructions segments =>
        simp only [requestWork]
        omega
      | ioScreenResponse pcb | ioKeyboardResponse pcb =>
        have := hload pcb
        simp only [requestWork]
        omega) c.toKernel
    have hmessages := total_nonneg (f := messageWork) (fun m => by
      cases m with
      | io package =>
        have := hload (packagePcb package)
        simp only [messageWork]
        omega
      | _ => simp only [messageWork]; omega) c.toConsole
    simp only [consoleWork]
    omega
  · have hthread : 0 ≤ deviceThreadWork d.thread := by
      cases d.thread with
      | serving time pcb =>
        have := hload pcb
        simp only [deviceThreadWork]
        omega
      | _ => simp only [deviceThreadWork]; omega
    have hitems := total_nonneg (f := itemWork) (fun item => by
      cases item with
      | process pcb =>
        have := hload pcb
        simp only [itemWork]
        omega
      | time parameter => simp only [itemWork]; omega) d.listProcesses
    simp only [deviceWork]
    omega
  · cases p with
    | lock pcb segment page | send pcb segment page =>
      have := hload pcb
      simp only [pageFaultWork]
      omega
    | finished => simp only [pageFaultWork]; omega
  · cases r with
    | requestPageFault pcb segment page =>
      have := hload pcb
      simp only [toMemoryWork]
      omega
    | initProcessStructuresMemory pcb | endStructures pcb => simp only [toMemoryWork]; omega
  · cases r with
    | responsePageFault pcb =>
      have := hload pcb
      simp only [fromMemoryWork]
      omega
    | initProcessStructuresMemoryResponse pcb => simp only [fromMemoryWork]; omega

/-- Nor does a thread. -/
theorem threads_nonneg (s : System) :
    0 ≤ schedulerWork s.shortTermScheduler ∧ 0 ≤ dispatchWork s.threadDispatch ∧
      0 ≤ memoryWork s.threadMemory ∧ 0 ≤ interruptWork s.threadInterrupt ∧
      0 ≤ cpuWork s.cpu s.cpuThread := by
  have hload := load_nonneg
  refine ⟨?_, ?_, ?_, ?_, ?_⟩
  · cases s.shortTermScheduler with
    | addRunning pcb timed | send pcb timed =>
      have := hload pcb
      simp only [schedulerWork]
      omega
    | _ => simp only [schedulerWork]; omega
  · cases s.threadDispatch with
    | postFree package | postGrado package | lockOut package | setFlag package | unlockOut package
    | removeRunning package | sendConsole package =>
      have := hload (packagePcb package)
      simp only [dispatchWork]
      omega
    | addBlocked pcb _ _ | addTime pcb _ _ | addProcess pcb _ | addReady pcb
    | createThread pcb _ _ =>
      have := hload pcb
      simp only [dispatchWork]
      omega
    | sendMemory package | sendEnd package => cases package <;> simp
    | receive | postDevice _ | postReady | addExit _ => simp only [dispatchWork]; omega
  · cases s.threadMemory with
    | addReady pcb =>
      have := hload pcb
      simp only [memoryWork]
      omega
    | _ => simp only [memoryWork]; omega
  · cases s.threadInterrupt <;> simp
  · cases s.cpuThread with
    | receive =>
      simp only [cpuWork]
      split <;> omega
    | running dispatch pcb =>
      have := hload pcb
      simp only [cpuWork]
      split <;> omega
    | leaving dispatch pcb =>
      have := hload pcb
      simp only [cpuWork]
      omega
    | sending reply =>
      have := hload (packagePcb reply.package)
      simp only [cpuWork]
      split <;> omega

theorem work_nonneg (limit : ℕ) (s : System) : 0 ≤ work limit s := by
  have hload := load_nonneg
  obtain ⟨hconsole, hdevice, hfault, hto, hfrom⟩ := @weights_nonneg limit
  obtain ⟨hscheduler, hdispatch, hmemory, hinterrupt, hcpu⟩ := threads_nonneg s
  have hconsoles := total_nonneg hconsole s.consoles
  have hdevices := total_nonneg hdevice s.devices
  have hfaults := total_nonneg hfault s.pageFaultThreads
  have htos := total_nonneg hto s.toMemory
  have hfroms := total_nonneg hfrom s.fromMemory
  have hready := total_nonneg hload (s.listReady++s.listReadyRr++s.listReadyFifo)
  have hsent := total_nonneg (f := fun sent : Dispatch × Pcb => 1+load sent.2)
    (fun sent => by have := hload sent.2; omega) s.toCpu
  have hreplies := total_nonneg (f := fun reply : Reply => 31+load (packagePcb reply.package))
    (fun reply => by have := hload (packagePcb reply.package); omega) s.fromCpu
  have hnew : 0 ≤ 70*(limit : ℤ)*s.listNew.length := by positivity
  simp only [work]
  omega

theorem boot_short (cfg : KernelConfig) (limit : ℕ) (time : TimeVal) :
    Short limit (boot cfg time) := by
  constructor <;> simp [boot, KernelLedger.copies, replacement]

/-- What is known of a state whose programs are no longer than `limit`. -/
structure Bounded (cfg : KernelConfig) (limit : ℕ) (s : System) : Prop where
  sound : Sound cfg s
  short : Short limit s

theorem step_bounded {t : System} {e : Event} (hs : Bounded cfg limit s) (hbrief : Brief limit s e)
    (h : step cfg s e = some t) : Bounded cfg limit t :=
  ⟨step_sound hs.sound h, step_short hs.short hbrief h⟩

end Bound

def first : System := boot (smallKernel .fifo) midnight

end Geck.KernelWork
