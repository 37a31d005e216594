import Geck.KernelState

/-!
# One step of each thread

Each function moves one thread by one access to what the threads share; `none`
is a thread that has to wait, or one that dereferences a null pointer. That an
operation on a list is one step is an assumption, which no mutex of the kernel
makes true: `KernelOperations` divides it. The short-term scheduler alone removes
from the ready queues, so its test of a queue and its removal are one step.
-/

set_option autoImplicit false

namespace Geck.KernelThreads
open Geck.BlockStore Geck.SharedPcb Geck.MemoryHandlers Geck.CpuTranslation Geck.CpuExecution
open Geck.KernelState

/-- `schedule_next_to` with the queue that every return to READY but the one
after a quantum uses. -/
def addToReady (cfg : KernelConfig) (s : System) (pcb : Pcb) : System :=
  match cfg.algoritmoPlanificacion with
  | .feedback => { s with listReadyRr := s.listReadyRr++[changePcbStateTo pcb .ready] }
  | _ => { s with listReady := s.listReady++[changePcbStateTo pcb .ready] }

/-- `init_structures_memory` is the part from `sendInit` to `waitInit`. -/
def scheduleNextToReady (cfg : KernelConfig) (s : System) (i : ℕ) (c : Console) : Option System :=
  match c.thread with
  | .waitGrado =>
    if 0 < s.semGradoMultiprogamacion then
      some ({ s with semGradoMultiprogamacion := s.semGradoMultiprogamacion-1 }.setConsole i
        { c with thread := .testNew })
    else none
  | .testNew =>
    some (s.setConsole i { c with thread := if s.listNew = [] then .postScheduleReady else .getNew })
  | .getNew =>
    match s.listNew with
    | [] => none
    | pcb::_ => some (s.setConsole i { c with thread := .sendInit pcb })
  | .sendInit pcb =>
    some ({ s with
      toMemory := s.toMemory++[KernelRequest.initProcessStructuresMemory pcb] }.setConsole i
      { c with thread := .waitInit })
  | .waitInit =>
    if 0 < s.semInitProcessMemory then
      some ({ s with semInitProcessMemory := s.semInitProcessMemory-1 }.setConsole i
        { c with thread := .removeNew })
    else none
  | .removeNew =>
    match s.listNew with
    | [] => none
    | pcb::rest => some ({ s with listNew := rest }.setConsole i { c with thread := .addReady pcb })
  | .addReady pcb => some ((addToReady cfg s pcb).setConsole i { c with thread := .postReady })
  | .postReady =>
    some ({ s with semProcessInReady := s.semProcessInReady+1 }.setConsole i
      { c with thread := .postScheduleReady })
  | _ => none

def receiveConsole (cfg : KernelConfig) (s : System) (i : ℕ) (c : Console) : Option System :=
  match c.thread with
  | .receive =>
    match c.toKernel with
    | [] => none
    | .initProcess instructions segments::rest =>
      some ({ s with
        pidCounter := s.pidCounter+1
        created := s.created++[(s.pidCounter, (i : ℤ))] }.setConsole i { c with
          thread := .created (pcbCreate instructions i s.pidCounter segments)
          toKernel := rest })
    | .ioScreenResponse pcb::rest =>
      some (s.setConsole i { c with thread := .returned pcb, toKernel := rest })
    | .ioKeyboardResponse pcb::rest =>
      some (s.setConsole i { c with thread := .returned pcb, toKernel := rest })
  | .created pcb =>
    some ({ s with listNew := s.listNew++[changePcbStateTo pcb .new] }.setConsole i
      { c with thread := .waitScheduleReady })
  | .waitScheduleReady =>
    if 0 < s.semScheduleReady then
      some ({ s with semScheduleReady := s.semScheduleReady-1 }.setConsole i
        { c with thread := .waitGrado })
    else none
  | .postScheduleReady =>
    some ({ s with semScheduleReady := s.semScheduleReady+1 }.setConsole i
      { c with thread := .receive })
  | .returned pcb => some ((addToReady cfg s pcb).setConsole i { c with thread := .postReturned })
  | .postReturned =>
    some ({ s with semProcessInReady := s.semProcessInReady+1 }.setConsole i
      { c with thread := .receive })
  | _ => scheduleNextToReady cfg s i c

def scheduleNextToRunning (cfg : KernelConfig) (s : System) : Option System :=
  match s.shortTermScheduler with
  | .waitReady =>
    if 0 < s.semProcessInReady then
      some { s with
        semProcessInReady := s.semProcessInReady-1
        shortTermScheduler := .waitCpuFree }
    else none
  | .waitCpuFree =>
    if 0 < s.semCpuFreeToExecute then
      some { s with
        semCpuFreeToExecute := s.semCpuFreeToExecute-1
        shortTermScheduler := .choose }
    else none
  | .choose =>
    match cfg.algoritmoPlanificacion with
    | .fifo =>
      match s.listReady with
      | [] => none
      | pcb::rest => some { s with listReady := rest, shortTermScheduler := .addRunning pcb false }
    | .rr =>
      match s.listReady with
      | [] => none
      | pcb::rest => some { s with listReady := rest, shortTermScheduler := .addRunning pcb true }
    | .feedback =>
      match s.listReadyRr with
      | [] => some { s with shortTermScheduler := .chooseFifo }
      | pcb::rest => some { s with listReadyRr := rest, shortTermScheduler := .addRunning pcb true }
  | .chooseFifo =>
    match s.listReadyFifo with
    | [] => some { s with shortTermScheduler := .waitReady }
    | pcb::rest => some { s with
        listReadyFifo := rest
        shortTermScheduler := .addRunning pcb false }
  | .addRunning pcb timed =>
    some { s with
      listRunning := s.listRunning++[changePcbStateTo pcb .running]
      shortTermScheduler := .send (changePcbStateTo pcb .running) timed }
  | .send pcb timed =>
    some { s with
      toCpu := s.toCpu++[(⟨s.sent, timed⟩, pcb)]
      sent := s.sent+1
      shortTermScheduler := if timed then .postBeggin ⟨s.sent, timed⟩ else .setUltimo timed }
  | .postBeggin dispatch =>
    some { s with
      semBegginQuantum := s.semBegginQuantum++[dispatch]
      shortTermScheduler := .setUltimo dispatch.timed }
  | .setUltimo timed =>
    some { s with
      ultimo := some (if timed then .rr else .fifo)
      shortTermScheduler := .waitReady }

/-- The first thing each case of `manage_dispatch` does. -/
def afterFree : CpuPackage → ThreadDispatch
  | .ioScreen pcb device parameter => .lockOut (.ioScreen pcb device parameter)
  | .ioKeyboard pcb device parameter => .lockOut (.ioKeyboard pcb device parameter)
  | .ioDefault pcb device parameter => .lockOut (.ioDefault pcb device parameter)
  | .executeInterruption pcb => .removeRunning (.executeInterruption pcb)
  | .pageFault pcb segment page => .removeRunning (.pageFault pcb segment page)
  | .segFault pcb => .postGrado (.segFault pcb)
  | .endProcess pcb => .postGrado (.endProcess pcb)

/-- What follows the setting of the flag: the process blocks for a device or exits. -/
def afterFlag : CpuPackage → ThreadDispatch
  | .ioDefault pcb device parameter => .addBlocked pcb device parameter
  | .ioScreen pcb device parameter => .sendConsole (.ioScreen pcb device parameter)
  | .ioKeyboard pcb device parameter => .sendConsole (.ioKeyboard pcb device parameter)
  | package => .removeRunning package

def afterRunning : CpuPackage → ThreadDispatch
  | .executeInterruption pcb => .addReady pcb
  | .pageFault pcb segment page => .createThread pcb segment page
  | package => .addExit package

/-- A package to a console; one to a socket of no console is lost. -/
def sendToConsole (s : System) (clientSocket : ℤ) (message : ConsoleMessage) : System :=
  match listGet s.consoles clientSocket with
  | none => s
  | some c => s.setConsole clientSocket.toNat { c with toConsole := c.toConsole++[message] }

/-- `send_pcb_io_package` to the console of the process, which is now blocked. -/
def ioMessage : CpuPackage → ConsoleMessage
  | .ioScreen pcb device parameter =>
    .io (sendPcbIoPackage (changePcbStateTo pcb .blocked) device parameter)
  | .ioKeyboard pcb device parameter =>
    .io (sendPcbIoPackage (changePcbStateTo pcb .blocked) device parameter)
  | package => .io package

def manageDispatch (cfg : KernelConfig) (s : System) : Option System :=
  match s.threadDispatch with
  | .receive =>
    match s.fromCpu with
    | [] => none
    | reply::rest => some { s with fromCpu := rest, threadDispatch := .postFree reply.package }
  | .postFree package =>
    some { s with
      semCpuFreeToExecute := s.semCpuFreeToExecute+1
      threadDispatch := afterFree package }
  | .postGrado package =>
    some { s with
      semGradoMultiprogamacion := s.semGradoMultiprogamacion+1
      threadDispatch := .lockOut package }
  | .lockOut package =>
    if s.mOutOfRunning then none
    else some { s with mOutOfRunning := true, threadDispatch := .setFlag package }
  | .setFlag package =>
    match s.ultimo with
    | none => none
    | some u => some { s with
        flagOutOfRunning := s.flagOutOfRunning || decide (u = .rr)
        threadDispatch := .unlockOut package }
  | .unlockOut package =>
    some { s with mOutOfRunning := false, threadDispatch := afterFlag package }
  | .sendConsole package =>
    some { sendToConsole s (packagePcb package).clientSocket (ioMessage package) with
      threadDispatch := .receive }
  | .addBlocked pcb device parameter =>
    some { s with
      listBlocked := s.listBlocked++[changePcbStateTo pcb .blocked]
      threadDispatch := .addTime (changePcbStateTo pcb .blocked) device parameter }
  | .addTime pcb device parameter =>
    match dictionaryGet s.devices device with
    | none => none
    | some i =>
      match s.devices[i]? with
      | none => none
      | some d => some { s.setDevice i { d with
            listProcesses := d.listProcesses++[.time parameter] } with
          threadDispatch := .addProcess pcb i }
  | .addProcess pcb i =>
    match s.devices[i]? with
    | none => none
    | some d => some { s.setDevice i { d with
          listProcesses := d.listProcesses++[.process pcb] } with
        threadDispatch := .postDevice i }
  | .postDevice i =>
    match s.devices[i]? with
    | none => none
    | some d => some { s.setDevice i { d with semDevices := d.semDevices+1 } with
        threadDispatch := .receive }
  | .removeRunning package =>
    some { s with listRunning := s.listRunning.tail, threadDispatch := afterRunning package }
  | .addReady pcb =>
    match cfg.algoritmoPlanificacion with
    | .rr => some { s with
        listReady := s.listReady++[changePcbStateTo pcb .ready]
        threadDispatch := .postReady }
    | .feedback => some { s with
        listReadyFifo := s.listReadyFifo++[changePcbStateTo pcb .ready]
        threadDispatch := .postReady }
    | .fifo => some { s with threadDispatch := .receive }
  | .postReady =>
    some { s with semProcessInReady := s.semProcessInReady+1, threadDispatch := .receive }
  | .addExit package =>
    some { s with
      listExit := s.listExit++[changePcbStateTo (packagePcb package) .exit]
      threadDispatch := match package with
        | .segFault _ => .sendEnd package
        | _ => .sendMemory package }
  | .sendMemory package =>
    some { s with
      toMemory := s.toMemory++[.endStructures (changePcbStateTo (packagePcb package) .exit)]
      threadDispatch := match package with
        | .segFault _ => .receive
        | _ => .sendEnd package }
  | .sendEnd package =>
    match package with
    | .segFault pcb => some { sendToConsole s pcb.clientSocket .endConsoleSegFault with
        threadDispatch := .sendMemory package }
    | _ => some { sendToConsole s (packagePcb package).clientSocket .endConsole with
        threadDispatch := .receive }
  | .createThread pcb segmentNumber pageNumber =>
    some { s with
      pageFaultThreads := s.pageFaultThreads++[.lock pcb segmentNumber pageNumber]
      threadDispatch := .receive }

def manageInterrupt (s : System) : Option System :=
  match s.threadInterrupt with
  | .wait =>
    match s.semInterruptionQuantum with
    | [] => none
    | dispatch::rest => some { s with
        semInterruptionQuantum := rest
        threadInterrupt := .look dispatch }
  | .look dispatch =>
    some { s with threadInterrupt := if s.listRunning = [] then .wait else .send dispatch }
  | .send dispatch =>
    some { s with interrupts := s.interrupts++[dispatch], threadInterrupt := .postFinish }
  | .postFinish =>
    some { s with
      semInterruptionQuantumFinish := s.semInterruptionQuantumFinish+1
      threadInterrupt := .wait }

/-- `expired` is what `temporal_gettime(clock) >= quantum_round_robin` says. Under
FIFO the thread is not started. -/
def countQuantumOfRoundRobin (cfg : KernelConfig) (s : System) (expired : Bool) : Option System :=
  if cfg.algoritmoPlanificacion = .fifo then none
  else match s.switcherClock with
  | .startLock =>
    if s.mOutOfRunning then none
    else some { s with mOutOfRunning := true, switcherClock := .startReset }
  | .startReset => some { s with flagOutOfRunning := false, switcherClock := .startUnlock }
  | .startUnlock => some { s with mOutOfRunning := false, switcherClock := .waitBeggin }
  | .waitBeggin =>
    match s.semBegginQuantum with
    | [] => none
    | dispatch::rest => some { s with
        semBegginQuantum := rest
        switcherClock := .unlockFirst dispatch }
  | .unlockFirst dispatch => some { s with mOutOfRunning := false, switcherClock := .resetFlag dispatch }
  | .resetFlag dispatch =>
    some { s with flagOutOfRunning := false, switcherClock := .unlockAgain dispatch }
  | .unlockAgain dispatch => some { s with mOutOfRunning := false, switcherClock := .lock dispatch }
  | .lock dispatch =>
    if s.mOutOfRunning then none
    else some { s with mOutOfRunning := true, switcherClock := .test dispatch }
  | .test dispatch =>
    if s.flagOutOfRunning then
      some { s with flagOutOfRunning := false, switcherClock := .unlock none }
    else if expired then
      some { s with
        semInterruptionQuantum := s.semInterruptionQuantum++[dispatch]
        switcherClock := .waitFinish }
    else some { s with switcherClock := .unlock (some dispatch) }
  | .waitFinish =>
    if 0 < s.semInterruptionQuantumFinish then
      some { s with
        semInterruptionQuantumFinish := s.semInterruptionQuantumFinish-1
        switcherClock := .unlock none }
    else none
  | .unlock running =>
    some { s with
      mOutOfRunning := false
      switcherClock := match running with
        | none => .waitBeggin
        | some dispatch => .lock dispatch }

def manageMemory (cfg : KernelConfig) (s : System) : Option System :=
  match s.threadMemory with
  | .receive =>
    match s.fromMemory with
    | [] => none
    | .initProcessStructuresMemoryResponse pcb::rest =>
      some { s with fromMemory := rest, threadMemory := .replaceNew pcb }
    | .responsePageFault pcb::rest =>
      some { s with fromMemory := rest, threadMemory := .addReady pcb }
  | .replaceNew pcb =>
    some { s with listNew := listReplace s.listNew 0 pcb, threadMemory := .postInit }
  | .postInit =>
    some { s with semInitProcessMemory := s.semInitProcessMemory+1, threadMemory := .receive }
  | .addReady pcb =>
    -- the FEEDBACK branch does not post `sem_process_in_ready`
    some { addToReady cfg s pcb with
      threadMemory := match cfg.algoritmoPlanificacion with
        | .feedback => .unlockPageFault
        | _ => .postReady }
  | .postReady =>
    some { s with
      semProcessInReady := s.semProcessInReady+1
      threadMemory := .unlockPageFault }
  | .unlockPageFault => some { s with mResolvePageFault := false, threadMemory := .receive }

def resolvePageFault (s : System) (i : ℕ) : PageFaultThread → Option System
  | .lock pcb segmentNumber pageNumber =>
    if s.mResolvePageFault then none
    else some ({ s with mResolvePageFault := true }.setPageFaultThread i
      (.send (changePcbStateTo pcb .blocked) segmentNumber pageNumber))
  | .send pcb segmentNumber pageNumber =>
    some ({ s with toMemory := s.toMemory++[KernelRequest.requestPageFault pcb segmentNumber pageNumber]
      }.setPageFaultThread i .finished)
  | .finished => none

def simulateIoDefault (cfg : KernelConfig) (s : System) (i : ℕ) (d : Device) : Option System :=
  match d.thread with
  | .wait =>
    if 0 < d.semDevices then
      some (s.setDevice i { d with semDevices := d.semDevices-1, thread := .removeTime })
    else none
  | .removeTime =>
    match d.listProcesses with
    | .time parameter::rest =>
      some (s.setDevice i { d with listProcesses := rest, thread := .removeProcess parameter })
    | _ => none
  | .removeProcess time =>
    match d.listProcesses with
    | .process pcb::rest =>
      some (s.setDevice i { d with listProcesses := rest, thread := .serving time pcb })
    | _ => none
  | .serving _ pcb => some ((addToReady cfg s pcb).setDevice i { d with thread := .postReady })
  | .postReady =>
    some ({ s with semProcessInReady := s.semProcessInReady+1 }.setDevice i
      { d with thread := .wait })

/-- `process_dispatch` with `execute_process`: a turn of the loop, the tests
after it and the package they send. -/
def processDispatch (cfg : KernelConfig) (s : System) (answers : Answers) : Option System :=
  match s.cpuThread with
  | .receive =>
    match s.toCpu with
    | [] => none
    | (dispatch, pcb)::rest => some { s with
        toCpu := rest
        received := s.received+1
        cpu := setRegisters s.cpu pcb
        cpuThread := .running dispatch pcb }
  | .running dispatch pcb =>
    if keepsRunning s.cpu then do
      let (cpu, pcb, _) ← instructionCycle cfg.cpu answers s.cpu pcb
      some { s with cpu := cpu, cpuThread := .running dispatch pcb }
    else some { s with cpuThread := .leaving dispatch (saveContextPcb s.cpu pcb) }
  | .leaving dispatch pcb =>
    match leaveProcess s.cpu pcb with
    | (cpu, none) => some { s with cpu := cpu, cpuThread := .receive }
    | (cpu, some package) => some { s with
        cpu := cpu
        cause := none
        cpuThread := .sending ⟨dispatch, s.cause, package⟩ }
  | .sending reply =>
    some { s with
      fromCpu := s.fromCpu++[reply]
      replies := s.replies+1
      cpuThread := .receive }

/-- An interruption that finds `check_interruption` set changes nothing. -/
def processInterrupt (s : System) : Option System :=
  match s.interrupts with
  | [] => none
  | dispatch::rest => some { s with
      interrupts := rest
      cpu := { s.cpu with checkInterruption := true }
      cause := if s.cpu.checkInterruption then s.cause else some dispatch }

/-- Memory keeps the PCB it is sent but for the segment table of a new process. -/
def memoryAnswer (segments : List Segment) : KernelRequest → List KernelResponse
  | .initProcessStructuresMemory pcb =>
    [.initProcessStructuresMemoryResponse { pcb with segmentTable := segments }]
  | .requestPageFault pcb _ _ => [.responsePageFault pcb]
  | .endStructures _ => []

/-- The loop of memory, which keeps `segments` as the table of a new process. -/
def memoria (s : System) (segments : List Segment) : Option System :=
  match s.toMemory with
  | [] => none
  | request::rest => some { s with
      toMemory := rest
      fromMemory := s.fromMemory++memoryAnswer segments request }

/-- The loop of the console; `value` is what is typed. -/
def consola (s : System) (i : ℕ) (c : Console) (value : UInt32) : Option System :=
  if c.ended then none
  else match c.toConsole with
  | [] => none
  | .io (.ioScreen pcb _ _)::rest =>
    some (s.setConsole i { c with
      toConsole := rest
      toKernel := c.toKernel++[.ioScreenResponse pcb] })
  | .io (.ioKeyboard pcb _ parameter)::rest =>
    some (s.setConsole i { c with
      toConsole := rest
      toKernel := c.toKernel++[.ioKeyboardResponse { pcb with
        cpuRegisters := storeValueInRegister pcb.cpuRegisters parameter value }] })
  | _::rest => some (s.setConsole i { c with toConsole := rest, ended := true })

/-- A console connects and sends its program. -/
def connect (s : System) (instructions segments : List String) : System :=
  { s with consoles := s.consoles++[⟨.receive, [.initProcess instructions segments], [], false⟩] }

/-- Which thread or peer moves, and what it reads from outside the system. -/
inductive Event where
  | connect (instructions segments : List String)
  | console (i : ℕ) (value : UInt32)
  | receiveConsole (i : ℕ)
  | scheduleNextToRunning
  | manageDispatch
  | manageInterrupt
  | countQuantum (expired : Bool)
  | manageMemory
  | resolvePageFault (i : ℕ)
  | simulateIo (i : ℕ)
  | processDispatch (answers : Answers)
  | processInterrupt
  | memoria (segments : List Segment)

def step (cfg : KernelConfig) (s : System) : Event → Option System
  | .connect instructions segments => some (connect s instructions segments)
  | .console i value => do consola s i (← s.consoles[i]?) value
  | .receiveConsole i => do receiveConsole cfg s i (← s.consoles[i]?)
  | .scheduleNextToRunning => scheduleNextToRunning cfg s
  | .manageDispatch => manageDispatch cfg s
  | .manageInterrupt => manageInterrupt s
  | .countQuantum expired => countQuantumOfRoundRobin cfg s expired
  | .manageMemory => manageMemory cfg s
  | .resolvePageFault i => do resolvePageFault s i (← s.pageFaultThreads[i]?)
  | .simulateIo i => do simulateIoDefault cfg s i (← s.devices[i]?)
  | .processDispatch answers => processDispatch cfg s answers
  | .processInterrupt => processInterrupt s
  | .memoria segments => memoria s segments

def smallKernel (algorithm : Algorithm) : KernelConfig where
  algoritmoPlanificacion := algorithm
  gradoMaxMultiprogramacion := 2
  dispositivosIo := ["DISCO"]
  tiemposIo := ["1"]
  cpu := smallCpu

/-- A page fault for every frame request, and a value for every load. -/
def faulting : Answers := ⟨.pageFault (-1), .movInOk 7, ⟨midnight, midnight⟩⟩

/-- A console connects and its process is admitted. -/
def admission (i : ℕ) (instructions : List String) : List Event :=
  .connect instructions ["16"]::List.replicate 7 (.receiveConsole i)++
    .memoria [⟨0, 0, 16⟩]::List.replicate 3 .manageMemory++List.replicate 5 (.receiveConsole i)

/-- The scheduler sends the next process of the first queue. -/
def dispatching (algorithm : Algorithm) : List Event :=
  List.replicate (if algorithm = .fifo then 6 else 7) .scheduleNextToRunning

/-- The CPU takes a process, executes one instruction that stops it and replies. -/
def stopping : List Event := List.replicate 5 (.processDispatch faulting)

/-- The kernel takes a page fault, and memory serves it. -/
def resolving (i : ℕ) : List Event :=
  List.replicate 4 .manageDispatch++[.resolvePageFault i, .resolvePageFault i, .memoria []]

end Geck.KernelThreads
