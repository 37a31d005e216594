import Geck.CpuExecution

/-!
# The kernel, its threads and its peers

A thread is where it stands in its function, with its local variables. A
semaphore is its value; the two of the quantum also say which dispatch each of
their tokens came from, which no code reads. A connection is the list of packages
in flight. A list has no mutex: most are locked in a copy and exclude nobody.
-/

set_option autoImplicit false

namespace Geck.KernelState
open Geck.SharedPcb Geck.MemoryHandlers Geck.CpuTranslation Geck.CpuExecution

inductive Algorithm where
  | fifo
  | rr
  | feedback
  deriving DecidableEq, Repr

structure KernelConfig where
  algoritmoPlanificacion : Algorithm
  gradoMaxMultiprogramacion : ℕ
  dispositivosIo : List String
  tiemposIo : List String
  cpu : CpuConfig

/-- An `EXECUTE_PCB` by its number, and whether the kernel starts a quantum for it. -/
structure Dispatch where
  number : ℕ
  timed : Bool
  deriving DecidableEq, Repr

/-- A package of `execute_process`, with the dispatch it answers and the
dispatch whose quantum caused the interruption it reports. -/
structure Reply where
  dispatch : Dispatch
  cause : Option Dispatch
  package : CpuPackage
  deriving DecidableEq, Repr

def packagePcb : CpuPackage → Pcb
  | .endProcess pcb => pcb
  | .ioScreen pcb _ _ => pcb
  | .ioKeyboard pcb _ _ => pcb
  | .ioDefault pcb _ _ => pcb
  | .pageFault pcb _ _ => pcb
  | .segFault pcb => pcb
  | .executeInterruption pcb => pcb

attribute [simp] packagePcb.eq_1 packagePcb.eq_2 packagePcb.eq_3 packagePcb.eq_4 packagePcb.eq_5
  packagePcb.eq_6 packagePcb.eq_7

/-- From a console to the kernel. -/
inductive ConsoleRequest where
  | initProcess (instructions segments : List String)
  | ioScreenResponse (pcb : Pcb)
  | ioKeyboardResponse (pcb : Pcb)
  deriving DecidableEq, Repr

/-- From the kernel to a console. -/
inductive ConsoleMessage where
  | io (package : CpuPackage)
  | endConsole
  | endConsoleSegFault
  deriving DecidableEq, Repr

/-- `receive_console` and the `schedule_next_to_ready` it calls. -/
inductive ConsoleThread where
  | receive
  | created (pcb : Pcb)
  | waitScheduleReady
  | waitGrado
  | testNew
  | getNew
  | sendInit (pcb : Pcb)
  | waitInit
  | removeNew
  | addReady (pcb : Pcb)
  | postReady
  | postScheduleReady
  | returned (pcb : Pcb)
  | postReturned
  deriving DecidableEq, Repr

structure Console where
  thread : ConsoleThread
  toKernel : List ConsoleRequest
  toConsole : List ConsoleMessage
  ended : Bool
  deriving DecidableEq, Repr

/-- `schedule_next_to_running`. -/
inductive ShortTermScheduler where
  | waitReady
  | waitCpuFree
  | choose
  | chooseFifo
  | addRunning (pcb : Pcb) (timed : Bool)
  | send (pcb : Pcb) (timed : Bool)
  | postBeggin (dispatch : Dispatch)
  | setUltimo (timed : Bool)
  deriving DecidableEq, Repr

inductive Ultimo where
  | fifo
  | rr
  deriving DecidableEq, Repr

/-- `count_quantum_of_RoundRobin`; the dispatch is the one whose token it took. -/
inductive SwitcherClock where
  | startLock
  | startReset
  | startUnlock
  | waitBeggin
  | unlockFirst (dispatch : Dispatch)
  | resetFlag (dispatch : Dispatch)
  | unlockAgain (dispatch : Dispatch)
  | lock (dispatch : Dispatch)
  | test (dispatch : Dispatch)
  | waitFinish
  | unlock (running : Option Dispatch)
  deriving DecidableEq, Repr

/-- `manage_dispatch`. -/
inductive ThreadDispatch where
  | receive
  | postFree (package : CpuPackage)
  | postGrado (package : CpuPackage)
  | lockOut (package : CpuPackage)
  | setFlag (package : CpuPackage)
  | unlockOut (package : CpuPackage)
  | sendConsole (package : CpuPackage)
  | addBlocked (pcb : Pcb) (device : String) (parameter : ℤ)
  | addTime (pcb : Pcb) (device : String) (parameter : ℤ)
  | addProcess (pcb : Pcb) (device : ℕ)
  | postDevice (device : ℕ)
  | removeRunning (package : CpuPackage)
  | addReady (pcb : Pcb)
  | postReady
  | addExit (package : CpuPackage)
  | sendMemory (package : CpuPackage)
  | sendEnd (package : CpuPackage)
  | createThread (pcb : Pcb) (segmentNumber pageNumber : ℤ)
  deriving DecidableEq, Repr

/-- `manage_interrupt`. -/
inductive ThreadInterrupt where
  | wait
  | look (dispatch : Dispatch)
  | send (dispatch : Dispatch)
  | postFinish
  deriving DecidableEq, Repr

/-- `manage_memory`. -/
inductive ThreadMemory where
  | receive
  | replaceNew (pcb : Pcb)
  | postInit
  | addReady (pcb : Pcb)
  | postReady
  | unlockPageFault
  deriving DecidableEq, Repr

/-- `resolve_page_fault`. -/
inductive PageFaultThread where
  | lock (pcb : Pcb) (segmentNumber pageNumber : ℤ)
  | send (pcb : Pcb) (segmentNumber pageNumber : ℤ)
  | finished
  deriving DecidableEq, Repr

/-- `list_processes` holds a time and a PCB for each process. -/
inductive DeviceItem where
  | time (parameter : ℤ)
  | process (pcb : Pcb)
  deriving DecidableEq, Repr

/-- `simulate_io_default`. -/
inductive DeviceThread where
  | wait
  | removeTime
  | removeProcess (time : ℤ)
  | serving (time : ℤ) (pcb : Pcb)
  | postReady
  deriving DecidableEq, Repr

structure Device where
  deviceName : String
  deviceLockedTime : ℤ
  listProcesses : List DeviceItem
  semDevices : ℕ
  thread : DeviceThread
  deriving DecidableEq, Repr

/-- `process_dispatch` and the `execute_process` it calls. -/
inductive CpuThread where
  | receive
  | running (dispatch : Dispatch) (pcb : Pcb)
  | leaving (dispatch : Dispatch) (pcb : Pcb)
  | sending (reply : Reply)
  deriving DecidableEq, Repr

/-- `created` lists the process and the console of each `pcb_create`; `sent`,
`received` and `replies` count packages on the dispatch connection and `cause`
is the dispatch whose interruption set `check_interruption`. No code reads them. -/
structure System where
  consoles : List Console
  created : List (ℤ × ℤ)
  pidCounter : ℤ
  listNew : List Pcb
  listReady : List Pcb
  listReadyRr : List Pcb
  listReadyFifo : List Pcb
  listBlocked : List Pcb
  listRunning : List Pcb
  listExit : List Pcb
  semGradoMultiprogamacion : ℕ
  semProcessInReady : ℕ
  semCpuFreeToExecute : ℕ
  semInitProcessMemory : ℕ
  semScheduleReady : ℕ
  semBegginQuantum : List Dispatch
  semInterruptionQuantum : List Dispatch
  semInterruptionQuantumFinish : ℕ
  mOutOfRunning : Bool
  mResolvePageFault : Bool
  flagOutOfRunning : Bool
  ultimo : Option Ultimo
  shortTermScheduler : ShortTermScheduler
  threadDispatch : ThreadDispatch
  threadMemory : ThreadMemory
  threadInterrupt : ThreadInterrupt
  switcherClock : SwitcherClock
  devices : List Device
  pageFaultThreads : List PageFaultThread
  toMemory : List KernelRequest
  fromMemory : List KernelResponse
  toCpu : List (Dispatch × Pcb)
  fromCpu : List Reply
  interrupts : List Dispatch
  cpu : Cpu
  cause : Option Dispatch
  cpuThread : CpuThread
  sent : ℕ
  received : ℕ
  replies : ℕ

def createQueueForIo (ioName time : String) : Device where
  deviceName := ioName
  deviceLockedTime := atoi time
  listProcesses := []
  semDevices := 0
  thread := .wait

/-- `init_device_config_dictionary`: it stops at the end of the shorter array. -/
def initDeviceConfigDictionary (cfg : KernelConfig) : List Device :=
  List.zipWith createQueueForIo cfg.dispositivosIo cfg.tiemposIo

/-- The device a name stands for: `dictionary_put` replaces an older one. -/
def dictionaryGet : List Device → String → Option ℕ
  | [], _ => none
  | d::ds, name =>
    match dictionaryGet ds name with
    | some i => some (i+1)
    | none => if d.deviceName = name then some 0 else none

def initRegisters : Registers := ⟨0, 0, 0, 0⟩

/-- The globals of the CPU when it starts. -/
def initCpu (cfg : CpuConfig) (time : TimeVal) : Cpu where
  registers := initRegisters
  endProcess := false
  inputOuput := false
  checkInterruption := false
  pageFault := false
  sigsegv := false
  device := "NONE"
  parameter := "NONE"
  numeroSegmentoGlobalPageFault := 0
  numeroPaginaGlobalPageFault := 0
  tlb := initTlb cfg time

/-- After `init_global_lists`, `init_semaphores` and `init_scheduling`. -/
def boot (cfg : KernelConfig) (time : TimeVal) : System where
  consoles := []
  created := []
  pidCounter := 1
  listNew := []
  listReady := []
  listReadyRr := []
  listReadyFifo := []
  listBlocked := []
  listRunning := []
  listExit := []
  semGradoMultiprogamacion := cfg.gradoMaxMultiprogramacion
  semProcessInReady := 0
  semCpuFreeToExecute := 1
  semInitProcessMemory := 0
  semScheduleReady := 1
  semBegginQuantum := []
  semInterruptionQuantum := []
  semInterruptionQuantumFinish := 1
  mOutOfRunning := false
  mResolvePageFault := false
  flagOutOfRunning := false
  ultimo := none
  shortTermScheduler := .waitReady
  threadDispatch := .receive
  threadMemory := .receive
  threadInterrupt := .wait
  switcherClock := .startLock
  devices := initDeviceConfigDictionary cfg
  pageFaultThreads := []
  toMemory := []
  fromMemory := []
  toCpu := []
  fromCpu := []
  interrupts := []
  cpu := initCpu cfg.cpu time
  cause := none
  cpuThread := .receive
  sent := 0
  received := 0
  replies := 0

def System.setConsole (s : System) (i : ℕ) (c : Console) : System :=
  { s with consoles := s.consoles.set i c }

def System.setDevice (s : System) (i : ℕ) (d : Device) : System :=
  { s with devices := s.devices.set i d }

def System.setPageFaultThread (s : System) (i : ℕ) (p : PageFaultThread) : System :=
  { s with pageFaultThreads := s.pageFaultThreads.set i p }

end Geck.KernelState
