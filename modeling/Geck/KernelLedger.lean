import Geck.KernelThreads
import Geck.Tallies

/-!
# What the threads of the kernel keep constant

Every quantity counts what the shared state holds together with what each
thread has in its hands, so that a step moves a unit between two terms. A
process that a thread carries between two places counts at one of them.
-/

set_option autoImplicit false

namespace Geck.KernelLedger
open Geck.Tallies Geck.BlockStore Geck.SharedPcb Geck.MemoryHandlers Geck.CpuExecution
open Geck.KernelState Geck.KernelThreads

inductive Place where
  | new
  | ready
  | cpu
  | console
  | device
  | pageFault
  | exit
  deriving DecidableEq, Repr

def entering : ConsoleThread → List Pcb
  | .created pcb => [pcb]
  | _ => []

attribute [simp] entering.eq_1 entering.eq_2

def admitting : ConsoleThread → List Pcb
  | .addReady pcb => [pcb]
  | _ => []

attribute [simp] admitting.eq_1 admitting.eq_2

def returning : ConsoleThread → List Pcb
  | .returned pcb => [pcb]
  | _ => []

attribute [simp] returning.eq_1 returning.eq_2

def requested : ConsoleMessage → List Pcb
  | .io package => [packagePcb package]
  | _ => []

attribute [simp] requested.eq_1 requested.eq_2

def answered : ConsoleRequest → List Pcb
  | .initProcess _ _ => []
  | .ioScreenResponse pcb => [pcb]
  | .ioKeyboardResponse pcb => [pcb]

attribute [simp] answered.eq_1 answered.eq_2 answered.eq_3

/-- The processes a console has for I/O, in either direction. -/
def withConsole (c : Console) : List Pcb :=
  c.toConsole.flatMap requested++c.toKernel.flatMap answered++returning c.thread

def dispatching : ShortTermScheduler → List Pcb
  | .addRunning pcb _ => [pcb]
  | .send pcb _ => [pcb]
  | _ => []

attribute [simp] dispatching.eq_1 dispatching.eq_2 dispatching.eq_3

def executing : CpuThread → List Pcb
  | .receive => []
  | .running _ pcb => [pcb]
  | .leaving _ pcb => [pcb]
  | .sending reply => [packagePcb reply.package]

attribute [simp] executing.eq_1 executing.eq_2 executing.eq_3 executing.eq_4

def exits : CpuPackage → Bool
  | .endProcess _ => true
  | .segFault _ => true
  | _ => false

attribute [simp] exits.eq_1 exits.eq_2 exits.eq_3

/-- A process that `manage_dispatch` received and has not moved on. -/
def leavingCpu : ThreadDispatch → List Pcb
  | .postFree package => if exits package then [] else [packagePcb package]
  | .lockOut package => if exits package then [] else [packagePcb package]
  | .setFlag package => if exits package then [] else [packagePcb package]
  | .unlockOut package => if exits package then [] else [packagePcb package]
  | .sendConsole package => [packagePcb package]
  | .addBlocked pcb _ _ => [pcb]
  | .addTime pcb _ _ => [pcb]
  | .addProcess pcb _ => [pcb]
  | .removeRunning package => if exits package then [] else [packagePcb package]
  | .addReady pcb => [pcb]
  | .createThread pcb _ _ => [pcb]
  | _ => []

attribute [simp] leavingCpu.eq_1 leavingCpu.eq_2 leavingCpu.eq_3 leavingCpu.eq_4 leavingCpu.eq_5
  leavingCpu.eq_6 leavingCpu.eq_7 leavingCpu.eq_8 leavingCpu.eq_9 leavingCpu.eq_10
  leavingCpu.eq_11 leavingCpu.eq_12

/-- A process whose `END_PROCESS` or `SEG_FAULT` was received. -/
def exiting : ThreadDispatch → List Pcb
  | .postFree package => if exits package then [packagePcb package] else []
  | .postGrado package => [packagePcb package]
  | .lockOut package => if exits package then [packagePcb package] else []
  | .setFlag package => if exits package then [packagePcb package] else []
  | .unlockOut package => if exits package then [packagePcb package] else []
  | .removeRunning package => if exits package then [packagePcb package] else []
  | .addExit package => [packagePcb package]
  | _ => []

attribute [simp] exiting.eq_1 exiting.eq_2 exiting.eq_3 exiting.eq_4 exiting.eq_5 exiting.eq_6
  exiting.eq_7 exiting.eq_8

def queuedItem : DeviceItem → List Pcb
  | .time _ => []
  | .process pcb => [pcb]

attribute [simp] queuedItem.eq_1 queuedItem.eq_2

def serving : DeviceThread → List Pcb
  | .serving _ pcb => [pcb]
  | _ => []

attribute [simp] serving.eq_1 serving.eq_2

def inDevice (d : Device) : List Pcb := d.listProcesses.flatMap queuedItem++serving d.thread

def waitingFault : PageFaultThread → List Pcb
  | .lock pcb _ _ => [pcb]
  | .send pcb _ _ => [pcb]
  | .finished => []

attribute [simp] waitingFault.eq_1 waitingFault.eq_2 waitingFault.eq_3

def faultRequested : KernelRequest → List Pcb
  | .requestPageFault pcb _ _ => [pcb]
  | _ => []

attribute [simp] faultRequested.eq_1 faultRequested.eq_2

def faultAnswered : KernelResponse → List Pcb
  | .responsePageFault pcb => [pcb]
  | _ => []

attribute [simp] faultAnswered.eq_1 faultAnswered.eq_2

def faultResolved : ThreadMemory → List Pcb
  | .addReady pcb => [pcb]
  | _ => []

attribute [simp] faultResolved.eq_1 faultResolved.eq_2

/-- Where the processes are. A copy that no code reads again is not one of them:
the entries of RUNNING and BLOCKED, and the copies that travel to memory and
back while a process is still in NEW or is already in EXIT. -/
def processesAt (s : System) : Place → List Pcb
  | .new => s.listNew++s.consoles.flatMap fun c => entering c.thread
  | .ready => s.listReady++s.listReadyRr++s.listReadyFifo++
      s.consoles.flatMap fun c => admitting c.thread
  | .cpu => dispatching s.shortTermScheduler++s.toCpu.map Prod.snd++executing s.cpuThread++
      (s.fromCpu.map fun r => packagePcb r.package)++leavingCpu s.threadDispatch
  | .console => s.consoles.flatMap withConsole
  | .device => s.devices.flatMap inDevice
  | .pageFault => s.pageFaultThreads.flatMap waitingFault++s.toMemory.flatMap faultRequested++
      s.fromMemory.flatMap faultAnswered++faultResolved s.threadMemory
  | .exit => s.listExit++exiting s.threadDispatch

/-- The process and the console of a PCB: no copy changes them. -/
def identity (pcb : Pcb) : ℤ × ℤ := (pcb.processId, pcb.clientSocket)

@[simp] theorem identity_change_pcb_state (pcb : Pcb) (status : PcbStatus) :
    identity (changePcbStateTo pcb status) = identity pcb := rfl

@[simp] theorem identity_save_context (cpu : Cpu) (pcb : Pcb) :
    identity (saveContextPcb cpu pcb) = identity pcb := rfl

@[simp] theorem identity_update_program_counter (pcb : Pcb) :
    identity (updateProgramCounter pcb) = identity pcb := rfl

def weight (w : ℤ × ℤ → ℤ) (s : System) (place : Place) : ℤ :=
  total (fun pcb => w (identity pcb)) (processesAt s place)

/-- The processes past NEW whose end has not been received. -/
def admitted (w : ℤ × ℤ → ℤ) (s : System) : ℤ :=
  weight w s .ready+weight w s .cpu+weight w s .console+weight w s .device+weight w s .pageFault

/-- All places against all processes created: zero when none is lost or duplicated. -/
def census (w : ℤ × ℤ → ℤ) (s : System) : ℤ :=
  weight w s .new+admitted w s+weight w s .exit-total w s.created

/-- The queues of the algorithm. -/
def readyQueues (cfg : KernelConfig) (s : System) : List Pcb :=
  match cfg.algoritmoPlanificacion with
  | .feedback => s.listReadyRr++s.listReadyFifo
  | _ => s.listReady

/-- The token of `sem_process_in_ready` that the scheduler took and has not used. -/
def taken : ShortTermScheduler → ℤ
  | .waitCpuFree => 1
  | .choose => 1
  | .chooseFifo => 1
  | _ => 0

attribute [simp] taken.eq_1 taken.eq_2 taken.eq_3 taken.eq_4

def consoleOwes : ConsoleThread → ℤ
  | .postReady => 1
  | .postReturned => 1
  | _ => 0

attribute [simp] consoleOwes.eq_1 consoleOwes.eq_2 consoleOwes.eq_3

def dispatchOwes : ThreadDispatch → ℤ
  | .postReady => 1
  | _ => 0

attribute [simp] dispatchOwes.eq_1 dispatchOwes.eq_2

def memoryOwes : ThreadMemory → ℤ
  | .postReady => 1
  | _ => 0

attribute [simp] memoryOwes.eq_1 memoryOwes.eq_2

def deviceOwes : DeviceThread → ℤ
  | .postReady => 1
  | _ => 0

attribute [simp] deviceOwes.eq_1 deviceOwes.eq_2

/-- The threads that have enqueued a PCB and not yet posted. -/
def owed (s : System) : ℤ :=
  total (fun c => consoleOwes c.thread) s.consoles+dispatchOwes s.threadDispatch+
    memoryOwes s.threadMemory+total (fun d => deviceOwes d.thread) s.devices

/-- The PCBs in the ready queues that no token stands for. -/
def stranded (cfg : KernelConfig) (s : System) : ℤ :=
  (readyQueues cfg s).length-(s.semProcessInReady+taken s.shortTermScheduler+owed s)

def holdsCpu : ShortTermScheduler → ℤ
  | .choose => 1
  | .chooseFifo => 1
  | .addRunning _ _ => 1
  | .send _ _ => 1
  | _ => 0

attribute [simp] holdsCpu.eq_1 holdsCpu.eq_2 holdsCpu.eq_3 holdsCpu.eq_4 holdsCpu.eq_5

def busy : CpuThread → ℤ
  | .receive => 0
  | _ => 1

attribute [simp] busy.eq_1 busy.eq_2

def received : ThreadDispatch → ℤ
  | .postFree _ => 1
  | _ => 0

attribute [simp] received.eq_1 received.eq_2

/-- The dispatches whose reply `manage_dispatch` has not announced yet. -/
def outstanding (s : System) : ℤ :=
  s.toCpu.length+busy s.cpuThread+s.fromCpu.length+received s.threadDispatch

def cpuTokens (s : System) : ℤ :=
  s.semCpuFreeToExecute+holdsCpu s.shortTermScheduler+outstanding s

/-- Inside the section that `sem_schedule_ready` guards. -/
def scheduling : ConsoleThread → ℤ
  | .waitGrado => 1
  | .testNew => 1
  | .getNew => 1
  | .sendInit _ => 1
  | .waitInit => 1
  | .removeNew => 1
  | .addReady _ => 1
  | .postReady => 1
  | .postScheduleReady => 1
  | _ => 0

attribute [simp] scheduling.eq_1 scheduling.eq_2 scheduling.eq_3 scheduling.eq_4 scheduling.eq_5
  scheduling.eq_6 scheduling.eq_7 scheduling.eq_8 scheduling.eq_9 scheduling.eq_10

def scheduleTokens (s : System) : ℤ :=
  s.semScheduleReady+total (fun c => scheduling c.thread) s.consoles

def waitsInit : ConsoleThread → ℤ
  | .waitInit => 1
  | _ => 0

attribute [simp] waitsInit.eq_1 waitsInit.eq_2

def initRequest : KernelRequest → List Pcb
  | .initProcessStructuresMemory pcb => [pcb]
  | _ => []

attribute [simp] initRequest.eq_1 initRequest.eq_2

def initResponse : KernelResponse → List Pcb
  | .initProcessStructuresMemoryResponse pcb => [pcb]
  | _ => []

attribute [simp] initResponse.eq_1 initResponse.eq_2

def replacement : ThreadMemory → List Pcb
  | .replaceNew pcb => [pcb]
  | _ => []

attribute [simp] replacement.eq_1 replacement.eq_2

def initDone : ThreadMemory → ℤ
  | .postInit => 1
  | _ => 0

attribute [simp] initDone.eq_1 initDone.eq_2

/-- The copies of the head of NEW that are with memory or on their way. -/
def copies (s : System) : List Pcb :=
  s.toMemory.flatMap initRequest++s.fromMemory.flatMap initResponse++replacement s.threadMemory

/-- Each thread that waits for memory has one copy, or a token, on its way. -/
def initTokens (s : System) : ℤ :=
  (copies s).length+initDone s.threadMemory+s.semInitProcessMemory-
    total (fun c => waitsInit c.thread) s.consoles

/-- The console's process is in NEW and the console will remove one. -/
def willRemove : ConsoleThread → ℤ
  | .waitScheduleReady => 1
  | .waitGrado => 1
  | .testNew => 1
  | .getNew => 1
  | .sendInit _ => 1
  | .waitInit => 1
  | .removeNew => 1
  | _ => 0

attribute [simp] willRemove.eq_1 willRemove.eq_2 willRemove.eq_3 willRemove.eq_4 willRemove.eq_5
  willRemove.eq_6 willRemove.eq_7 willRemove.eq_8

def newcomers (s : System) : ℤ :=
  s.listNew.length-total (fun c => willRemove c.thread) s.consoles

def holdsDegree : ConsoleThread → ℤ
  | .testNew => 1
  | .getNew => 1
  | .sendInit _ => 1
  | .waitInit => 1
  | .removeNew => 1
  | _ => 0

attribute [simp] holdsDegree.eq_1 holdsDegree.eq_2 holdsDegree.eq_3 holdsDegree.eq_4
  holdsDegree.eq_5 holdsDegree.eq_6

def owesDegree : ThreadDispatch → ℤ
  | .postFree package => if exits package then 1 else 0
  | .postGrado _ => 1
  | _ => 0

attribute [simp] owesDegree.eq_1 owesDegree.eq_2 owesDegree.eq_3

/-- The tokens of the multiprogramming degree: free, held, used or not yet given back. -/
def degreeTokens (s : System) : ℤ :=
  s.semGradoMultiprogamacion+total (fun c => holdsDegree c.thread) s.consoles+
    admitted (fun _ => 1) s+owesDegree s.threadDispatch

end Geck.KernelLedger
