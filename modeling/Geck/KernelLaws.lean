import Geck.KernelLedger
import Geck.KernelFrames

/-!
# Each thread keeps the ledger

One lemma for each thread. A hypothesis names what would break a law: a queue
found empty, a package of another kind, a copy of another process. The
invariant of the kernel rules these out; `n` counts what was enqueued without
a token.
-/

set_option autoImplicit false

namespace Geck.KernelLaws
open Geck.Tallies Geck.BlockStore Geck.SharedPcb Geck.MemoryHandlers Geck.CpuExecution
open Geck.KernelState Geck.KernelThreads Geck.KernelFrames Geck.KernelLedger

structure Keeps (cfg : KernelConfig) (n : ℤ) (s t : System) : Prop where
  stranded : stranded cfg t = stranded cfg s+n
  cpu : cpuTokens t = cpuTokens s
  schedule : scheduleTokens t = scheduleTokens s
  init : initTokens t = initTokens s
  newcomers : newcomers t = newcomers s
  degree : degreeTokens t = degreeTokens s
  census : ∀ w, census w t = census w s

@[simp] theorem identity_create (instructions : List String) (i pid : ℤ) (segments : List String) :
    identity (pcbCreate instructions i pid segments) = (pid, i) := rfl

attribute [local simp] KernelLedger.stranded readyQueues owed cpuTokens outstanding scheduleTokens
  initTokens copies KernelLedger.newcomers degreeTokens admitted KernelLedger.census weight processesAt
  withConsole inDevice System.setConsole System.setDevice System.setPageFaultThread addToReady

section Consoles
variable {cfg : KernelConfig} {s t : System} {i : ℕ} {c : Console} (hc : s.consoles[i]? = some c)
include hc

theorem schedule_next_to_ready_keeps (hnew : c.thread = .testNew → s.listNew ≠ [])
    (h : scheduleNextToReady cfg s i c = some t) : Keeps cfg 0 s t := by
  cases hthread : c.thread with
  | waitGrado =>
    simp only [scheduleNextToReady, hthread, Option.ite_none_right_eq_some, Option.some.injEq] at h
    obtain ⟨hpos, rfl⟩ := h
    constructor <;> simp [total_set _ hc, hthread]
    omega
  | testNew =>
    simp only [scheduleNextToReady, hthread, if_neg (hnew hthread), Option.some.injEq] at h
    subst h
    constructor <;> simp [total_set _ hc, hthread]
  | getNew =>
    cases hn : s.listNew with
    | nil => simp [scheduleNextToReady, hthread, hn] at h
    | cons pcb rest =>
      simp only [scheduleNextToReady, hthread, hn, Option.some.injEq] at h
      subst h
      constructor <;> simp [total_set _ hc, hthread]
  | sendInit pcb =>
    simp only [scheduleNextToReady, hthread, Option.some.injEq] at h
    subst h
    constructor <;> simp [total_set _ hc, hthread]
    omega
  | waitInit =>
    simp only [scheduleNextToReady, hthread, Option.ite_none_right_eq_some, Option.some.injEq] at h
    obtain ⟨hpos, rfl⟩ := h
    constructor <;> simp [total_set _ hc, hthread]
    omega
  | removeNew =>
    cases hn : s.listNew with
    | nil => simp [scheduleNextToReady, hthread, hn] at h
    | cons pcb rest =>
      simp only [scheduleNextToReady, hthread, hn, Option.some.injEq] at h
      subst h
      constructor <;> simp [total_set _ hc, hthread, hn] <;> intros <;> omega
  | addReady pcb =>
    simp only [scheduleNextToReady, hthread, Option.some.injEq] at h
    subst h
    cases halg : cfg.algoritmoPlanificacion
    all_goals constructor <;> simp [total_set _ hc, hthread, halg] <;> intros <;> omega
  | postReady =>
    simp only [scheduleNextToReady, hthread, Option.some.injEq] at h
    subst h
    constructor <;> simp [total_set _ hc, hthread]
    omega
  | _ => simp [scheduleNextToReady, hthread] at h

theorem receive_console_keeps (hnew : c.thread = .testNew → s.listNew ≠ [])
    (h : receiveConsole cfg s i c = some t) : Keeps cfg 0 s t := by
  cases hthread : c.thread with
  | receive =>
    cases hk : c.toKernel with
    | nil => simp [receiveConsole, hthread, hk] at h
    | cons request rest =>
      cases request
      all_goals
        simp only [receiveConsole, hthread, hk, Option.some.injEq] at h
        subst h
        constructor <;> simp [total_set _ hc, hthread, hk] <;> intros <;> omega
  | created pcb =>
    simp only [receiveConsole, hthread, Option.some.injEq] at h
    subst h
    constructor <;> simp [total_set _ hc, hthread]
  | waitScheduleReady =>
    simp only [receiveConsole, hthread, Option.ite_none_right_eq_some, Option.some.injEq] at h
    obtain ⟨hpos, rfl⟩ := h
    constructor <;> simp [total_set _ hc, hthread]
    omega
  | postScheduleReady =>
    simp only [receiveConsole, hthread, Option.some.injEq] at h
    subst h
    constructor <;> simp [total_set _ hc, hthread]
  | returned pcb =>
    simp only [receiveConsole, hthread, Option.some.injEq] at h
    subst h
    cases halg : cfg.algoritmoPlanificacion
    all_goals constructor <;> simp [total_set _ hc, hthread, halg] <;> intros <;> omega
  | postReturned =>
    simp only [receiveConsole, hthread, Option.some.injEq] at h
    subst h
    constructor <;> simp [total_set _ hc, hthread]
    omega
  | _ =>
    refine schedule_next_to_ready_keeps hc hnew ?_
    simpa only [receiveConsole, hthread] using h

/-- What a console can be asked for: its screen or its keyboard. -/
def IoRequest : ConsoleMessage → Prop
  | .io (.ioScreen _ _ _) => True
  | .io (.ioKeyboard _ _ _) => True
  | .io _ => False
  | _ => True

theorem consola_keeps {value : UInt32} (hio : ∀ message ∈ c.toConsole, IoRequest message)
    (h : consola s i c value = some t) : Keeps cfg 0 s t := by
  cases hend : c.ended with
  | true => simp [consola, hend] at h
  | false =>
  cases hk : c.toConsole with
  | nil => simp [consola, hend, hk] at h
  | cons message rest =>
  have hmessage := hio message (by simp [hk])
  cases message with
  | io package =>
    cases package
    case ioScreen | ioKeyboard =>
      simp only [consola, hend, hk, Bool.false_eq_true, if_false, Option.some.injEq] at h
      subst h
      constructor <;> simp [total_set _ hc, hk, identity] <;> intros <;> omega
    all_goals exact hmessage.elim
  | endConsole | endConsoleSegFault =>
    simp only [consola, hend, hk, Bool.false_eq_true, if_false, Option.some.injEq] at h
    subst h
    constructor <;> simp [total_set _ hc, hk]

end Consoles

theorem connect_keeps (cfg : KernelConfig) (s : System) (instructions segments : List String) :
    Keeps cfg 0 s (connect s instructions segments) := by
  constructor <;> simp [connect]

theorem schedule_next_to_running_keeps {cfg : KernelConfig} {s t : System}
    (hfifo : s.shortTermScheduler = .chooseFifo → s.listReadyFifo ≠ [])
    (halg : s.shortTermScheduler = .chooseFifo → cfg.algoritmoPlanificacion = .feedback)
    (h : scheduleNextToRunning cfg s = some t) : Keeps cfg 0 s t := by
  cases hthread : s.shortTermScheduler with
  | waitReady =>
    simp only [scheduleNextToRunning, hthread, Option.ite_none_right_eq_some, Option.some.injEq] at h
    obtain ⟨hpos, rfl⟩ := h
    constructor <;> simp [hthread]
    omega
  | waitCpuFree =>
    simp only [scheduleNextToRunning, hthread, Option.ite_none_right_eq_some, Option.some.injEq] at h
    obtain ⟨hpos, rfl⟩ := h
    constructor <;> simp [hthread]
    omega
  | choose =>
    cases ha : cfg.algoritmoPlanificacion with
    | fifo | rr =>
      cases hq : s.listReady with
      | nil => simp [scheduleNextToRunning, hthread, ha, hq] at h
      | cons pcb rest =>
        simp only [scheduleNextToRunning, hthread, ha, hq, Option.some.injEq] at h
        subst h
        constructor <;> simp [hthread, ha, hq] <;> intros <;> omega
    | feedback =>
      cases hq : s.listReadyRr with
      | nil =>
        simp only [scheduleNextToRunning, hthread, ha, hq, Option.some.injEq] at h
        subst h
        constructor <;> simp [hthread, ha, hq]
      | cons pcb rest =>
        simp only [scheduleNextToRunning, hthread, ha, hq, Option.some.injEq] at h
        subst h
        constructor <;> simp [hthread, ha, hq] <;> intros <;> omega
  | chooseFifo =>
    have ha := halg hthread
    cases hq : s.listReadyFifo with
    | nil => exact absurd hq (hfifo hthread)
    | cons pcb rest =>
      simp only [scheduleNextToRunning, hthread, hq, Option.some.injEq] at h
      subst h
      constructor <;> simp [hthread, ha, hq] <;> intros <;> omega
  | send pcb timed =>
    simp only [scheduleNextToRunning, hthread, Option.some.injEq] at h
    subst h
    cases timed
    all_goals constructor <;> simp [hthread] <;> intros <;> omega
  | addRunning pcb timed | postBeggin dispatch | setUltimo timed =>
    simp only [scheduleNextToRunning, hthread, Option.some.injEq] at h
    subst h
    constructor <;> simp [hthread]

/-- The packages with which a process ends or leaves for a reason other than a device. -/
def LeavesRunning : CpuPackage → Prop
  | .ioScreen _ _ _ => False
  | .ioKeyboard _ _ _ => False
  | .ioDefault _ _ _ => False
  | _ => True

/-- The package that `manage_dispatch` works on is of the kind its case handles. -/
def Fits : ThreadDispatch → Prop
  | .postGrado package => exits package = true
  | .addExit package => exits package = true
  | .sendMemory package => exits package = true
  | .removeRunning package => LeavesRunning package
  | _ => True

@[simp] theorem send_pcb_io_package_pcb (pcb : Pcb) (device parameter : String) :
    packagePcb (sendPcbIoPackage pcb device parameter) = pcb := by
  unfold sendPcbIoPackage
  split
  · rfl
  · split <;> rfl

section Dispatch
variable {cfg : KernelConfig} {s t : System}

/-- The I/O request that a console gets is about the process of the package. -/
theorem io_message_identity (package : CpuPackage) :
    ∃ p, ioMessage package = .io p ∧ identity (packagePcb p) = identity (packagePcb package) := by
  cases package with
  | ioScreen pcb device parameter | ioKeyboard pcb device parameter =>
    refine ⟨_, rfl, ?_⟩
    rw [send_pcb_io_package_pcb]
    rfl
  | _ => exact ⟨_, rfl, rfl⟩

theorem send_console_keeps {package : CpuPackage} (hthread : s.threadDispatch = .sendConsole package)
    {c : Console} (hc : listGet s.consoles (packagePcb package).clientSocket = some c)
    (h : manageDispatch cfg s = some t) : Keeps cfg 0 s t := by
  have hset := (list_get_some hc).2
  obtain ⟨p, hp, hidentity⟩ := io_message_identity package
  simp only [manageDispatch, hthread, sendToConsole, hc, hp, Option.some.injEq] at h
  subst h
  constructor <;> simp [total_set _ hset, hthread, hidentity] <;> intros <;> omega

/-- A console that is told about the end of its process gets no process. -/
theorem told_end_keeps {package : CpuPackage} {clientSocket : ℤ} {message : ConsoleMessage}
    {next : ThreadDispatch} (hthread : s.threadDispatch = .sendEnd package)
    (hmessage : requested message = []) (hnext : next = .receive ∨ next = .sendMemory package) :
    Keeps cfg 0 s { sendToConsole s clientSocket message with threadDispatch := next } := by
  unfold sendToConsole
  cases hc : listGet s.consoles clientSocket with
  | none => rcases hnext with rfl | rfl <;> constructor <;> simp [hthread]
  | some c =>
    have hset := (list_get_some hc).2
    rcases hnext with rfl | rfl <;> constructor <;> simp [total_set _ hset, hthread, hmessage]

theorem send_end_keeps {package : CpuPackage} (hthread : s.threadDispatch = .sendEnd package)
    (h : manageDispatch cfg s = some t) : Keeps cfg 0 s t := by
  cases package
  all_goals
    simp only [manageDispatch, hthread, Option.some.injEq] at h
    subst h
  case segFault => exact told_end_keeps hthread rfl (Or.inr rfl)
  all_goals exact told_end_keeps hthread rfl (Or.inl rfl)

theorem receive_reply_keeps (hthread : s.threadDispatch = .receive)
    (h : manageDispatch cfg s = some t) : Keeps cfg 0 s t := by
  cases hr : s.fromCpu with
  | nil => simp [manageDispatch, hthread, hr] at h
  | cons reply rest =>
    simp only [manageDispatch, hthread, hr, Option.some.injEq] at h
    subst h
    cases hexits : exits reply.package
    all_goals constructor <;> simp [hthread, hr, hexits] <;> intros <;> omega

theorem post_free_keeps {package : CpuPackage} (hthread : s.threadDispatch = .postFree package)
    (h : manageDispatch cfg s = some t) : Keeps cfg 0 s t := by
  simp only [manageDispatch, hthread, Option.some.injEq] at h
  subst h
  cases package
  all_goals constructor <;> simp [hthread, afterFree]
  all_goals omega

/-- The steps between `postGrado` and the removal from RUNNING, of a process that exits. -/
theorem exit_package_keeps {package : CpuPackage} (hexits : exits package = true)
    (hthread : s.threadDispatch = .postGrado package ∨ s.threadDispatch = .addExit package ∨
      s.threadDispatch = .sendMemory package)
    (h : manageDispatch cfg s = some t) : Keeps cfg 0 s t := by
  rcases hthread with hthread | hthread | hthread
  all_goals
    simp only [manageDispatch, hthread, Option.some.injEq] at h
    subst h
    cases package <;> simp at hexits
  all_goals constructor <;> simp [hthread] <;> omega

theorem manage_dispatch_keeps (hfits : Fits s.threadDispatch)
    (hsocket : ∀ pcb ∈ leavingCpu s.threadDispatch,
      ∃ c, listGet s.consoles pcb.clientSocket = some c)
    (hfifo : ∀ pcb, s.threadDispatch = .addReady pcb → cfg.algoritmoPlanificacion ≠ .fifo)
    (h : manageDispatch cfg s = some t) : Keeps cfg 0 s t := by
  cases hthread : s.threadDispatch with
  | receive => exact receive_reply_keeps hthread h
  | postFree package => exact post_free_keeps hthread h
  | postGrado package =>
    rw [hthread] at hfits
    exact exit_package_keeps hfits (Or.inl hthread) h
  | lockOut package =>
    simp only [manageDispatch, hthread, Option.ite_none_left_eq_some, Option.some.injEq] at h
    obtain ⟨-, rfl⟩ := h
    constructor <;> simp [hthread]
  | setFlag package =>
    cases hu : s.ultimo with
    | none => simp [manageDispatch, hthread, hu] at h
    | some u =>
      simp only [manageDispatch, hthread, hu, Option.some.injEq] at h
      subst h
      constructor <;> simp [hthread]
  | unlockOut package =>
    simp only [manageDispatch, hthread, Option.some.injEq] at h
    subst h
    cases package
    all_goals constructor <;> simp [hthread, afterFlag]
  | sendConsole package =>
    obtain ⟨c, hc⟩ := hsocket (packagePcb package) (by simp [hthread])
    exact send_console_keeps hthread hc h
  | addBlocked pcb device parameter =>
    simp only [manageDispatch, hthread, Option.some.injEq] at h
    subst h
    constructor <;> simp [hthread]
  | addTime pcb device parameter =>
    obtain ⟨i, d, -, hd, rfl⟩ := add_time_some hthread h
    constructor <;> simp [hthread, total_set _ hd]
  | addProcess pcb i =>
    obtain ⟨d, hd, rfl⟩ := add_process_some hthread h
    constructor <;> simp [hthread, total_set _ hd] <;> intros <;> omega
  | postDevice i =>
    obtain ⟨d, hd, rfl⟩ := post_device_some hthread h
    constructor <;> simp [hthread, total_set _ hd]
  | removeRunning package =>
    have hleaves : LeavesRunning package := by simpa [Fits, hthread] using hfits
    simp only [manageDispatch, hthread, Option.some.injEq] at h
    subst h
    cases package
    case ioScreen | ioKeyboard | ioDefault => exact hleaves.elim
    all_goals constructor <;> simp [hthread, afterRunning]
  | addReady pcb =>
    cases halg : cfg.algoritmoPlanificacion with
    | fifo => exact absurd halg (hfifo pcb hthread)
    | rr | feedback =>
      simp only [manageDispatch, hthread, halg, Option.some.injEq] at h
      subst h
      constructor <;> simp [hthread, halg] <;> intros <;> omega
  | postReady =>
    simp only [manageDispatch, hthread, Option.some.injEq] at h
    subst h
    constructor <;> simp [hthread]
    omega
  | addExit package =>
    rw [hthread] at hfits
    exact exit_package_keeps hfits (Or.inr (Or.inl hthread)) h
  | sendMemory package =>
    rw [hthread] at hfits
    exact exit_package_keeps hfits (Or.inr (Or.inr hthread)) h
  | sendEnd package => exact send_end_keeps hthread h
  | createThread pcb segmentNumber pageNumber =>
    simp only [manageDispatch, hthread, Option.some.injEq] at h
    subst h
    constructor <;> simp [hthread] <;> intros <;> omega

end Dispatch

theorem manage_interrupt_keeps (cfg : KernelConfig) {s t : System} (h : manageInterrupt s = some t) :
    Keeps cfg 0 s t := by
  cases hthread : s.threadInterrupt with
  | wait =>
    cases hq : s.semInterruptionQuantum with
    | nil => simp [manageInterrupt, hthread, hq] at h
    | cons dispatch rest =>
      simp only [manageInterrupt, hthread, hq, Option.some.injEq] at h
      subst h
      constructor <;> simp
  | look dispatch | send dispatch | postFinish =>
    simp only [manageInterrupt, hthread, Option.some.injEq] at h
    subst h
    constructor <;> simp

theorem count_quantum_keeps {cfg : KernelConfig} {s t : System} {expired : Bool}
    (h : countQuantumOfRoundRobin cfg s expired = some t) : Keeps cfg 0 s t := by
  obtain ⟨_, _, _, _, _, _, rfl⟩ := count_quantum_frame h
  constructor <;> simp

/-- An enqueue of `manage_memory` that no post follows. -/
def Unposted (cfg : KernelConfig) (s : System) : Prop :=
  cfg.algoritmoPlanificacion = .feedback ∧ ∃ pcb, s.threadMemory = .addReady pcb

theorem list_replace_zero {α : Type*} (a b : α) (l : List α) : listReplace (a::l) 0 b = b::l := by
  simp [listReplace]

theorem manage_memory_keeps {cfg : KernelConfig} {s t : System}
    (hcopy : ∀ pcb, s.threadMemory = .replaceNew pcb →
      ∃ head rest, s.listNew = head::rest ∧ identity pcb = identity head)
    (hposted : ¬Unposted cfg s) (h : manageMemory cfg s = some t) : Keeps cfg 0 s t := by
  cases hthread : s.threadMemory with
  | receive =>
    cases hr : s.fromMemory with
    | nil => simp [manageMemory, hthread, hr] at h
    | cons response rest =>
      cases response
      all_goals
        simp only [manageMemory, hthread, hr, Option.some.injEq] at h
        subst h
        constructor <;> simp [hthread, hr] <;> intros <;> omega
  | replaceNew pcb =>
    obtain ⟨head, rest, hn, hid⟩ := hcopy pcb hthread
    simp only [manageMemory, hthread, hn, list_replace_zero, Option.some.injEq] at h
    subst h
    constructor <;> simp [hthread, hn, hid]
    omega
  | postInit =>
    simp only [manageMemory, hthread, Option.some.injEq] at h
    subst h
    constructor <;> simp [hthread]
    omega
  | addReady pcb =>
    cases halg : cfg.algoritmoPlanificacion with
    | feedback => exact absurd ⟨halg, pcb, hthread⟩ hposted
    | fifo | rr =>
      simp only [manageMemory, hthread, halg, Option.some.injEq] at h
      subst h
      constructor <;> simp [hthread, halg] <;> intros <;> omega
  | postReady | unlockPageFault =>
    simp only [manageMemory, hthread, Option.some.injEq] at h
    subst h
    constructor <;> simp [hthread] <;> omega

theorem manage_memory_unposted {cfg : KernelConfig} {s t : System} (hunposted : Unposted cfg s)
    (h : manageMemory cfg s = some t) : Keeps cfg 1 s t := by
  obtain ⟨halg, pcb, hthread⟩ := hunposted
  simp only [manageMemory, hthread, halg, Option.some.injEq] at h
  subst h
  constructor <;> simp [hthread, halg] <;> intros <;> omega

theorem resolve_page_fault_keeps (cfg : KernelConfig) {s t : System} {i : ℕ} {p : PageFaultThread}
    (hp : s.pageFaultThreads[i]? = some p) (h : resolvePageFault s i p = some t) :
    Keeps cfg 0 s t := by
  cases p with
  | lock pcb segmentNumber pageNumber =>
    simp only [resolvePageFault, Option.ite_none_left_eq_some, Option.some.injEq] at h
    obtain ⟨-, rfl⟩ := h
    constructor <;> simp [total_set _ hp]
  | send pcb segmentNumber pageNumber =>
    simp only [resolvePageFault, Option.some.injEq] at h
    subst h
    constructor <;> simp [total_set _ hp] <;> intros <;> omega
  | finished => simp [resolvePageFault] at h

theorem simulate_io_default_keeps {cfg : KernelConfig} {s t : System} {i : ℕ} {d : Device}
    (hd : s.devices[i]? = some d) (h : simulateIoDefault cfg s i d = some t) :
    Keeps cfg 0 s t := by
  cases hthread : d.thread with
  | wait =>
    simp only [simulateIoDefault, hthread, Option.ite_none_right_eq_some, Option.some.injEq] at h
    obtain ⟨-, rfl⟩ := h
    constructor <;> simp [total_set _ hd, hthread]
  | removeTime =>
    cases hl : d.listProcesses with
    | nil => simp [simulateIoDefault, hthread, hl] at h
    | cons item rest =>
      cases item with
      | process pcb => simp [simulateIoDefault, hthread, hl] at h
      | time parameter =>
        simp only [simulateIoDefault, hthread, hl, Option.some.injEq] at h
        subst h
        constructor <;> simp [total_set _ hd, hthread, hl]
  | removeProcess time =>
    cases hl : d.listProcesses with
    | nil => simp [simulateIoDefault, hthread, hl] at h
    | cons item rest =>
      cases item with
      | time parameter => simp [simulateIoDefault, hthread, hl] at h
      | process pcb =>
        simp only [simulateIoDefault, hthread, hl, Option.some.injEq] at h
        subst h
        constructor <;> simp [total_set _ hd, hthread, hl] <;> intros <;> omega
  | serving time pcb =>
    simp only [simulateIoDefault, hthread, Option.some.injEq] at h
    subst h
    cases halg : cfg.algoritmoPlanificacion
    all_goals constructor <;> simp [total_set _ hd, hthread, halg] <;> intros <;> omega
  | postReady =>
    simp only [simulateIoDefault, hthread, Option.some.injEq] at h
    subst h
    constructor <;> simp [total_set _ hd, hthread]
    omega

theorem instruction_cycle_identity {cfg : CpuTranslation.CpuConfig} {answers : Answers}
    {cpu cpu' : Cpu} {pcb pcb' : Pcb} {access : Option Access}
    (h : instructionCycle cfg answers cpu pcb = some (cpu', pcb', access)) :
    identity pcb' = identity pcb := by
  simp only [instructionCycle, Option.bind_eq_bind, Option.bind_eq_some_iff] at h
  obtain ⟨_, _, ⟨_, _⟩, _, h⟩ := h
  simp only [Option.some.injEq, Prod.mk.injEq] at h
  obtain ⟨_, rfl, _⟩ := h
  split <;> rfl

theorem leave_process_pcb {cpu cpu' : Cpu} {pcb : Pcb} {package : CpuPackage}
    (h : leaveProcess cpu pcb = (cpu', some package)) : packagePcb package = pcb := by
  unfold leaveProcess at h
  repeat' split at h
  all_goals simp only [Prod.mk.injEq, Option.some.injEq, reduceCtorEq, and_false] at h
  all_goals obtain ⟨-, rfl⟩ := h
  all_goals first | rfl | exact send_pcb_io_package_pcb _ _ _

theorem process_dispatch_keeps {cfg : KernelConfig} {s t : System} {answers : Answers}
    (hleave : ∀ dispatch pcb, s.cpuThread = .leaving dispatch pcb →
      ∃ cpu package, leaveProcess s.cpu pcb = (cpu, some package))
    (h : processDispatch cfg s answers = some t) : Keeps cfg 0 s t := by
  cases hthread : s.cpuThread with
  | receive =>
    cases hq : s.toCpu with
    | nil => simp [processDispatch, hthread, hq] at h
    | cons sent rest =>
      simp only [processDispatch, hthread, hq, Option.some.injEq] at h
      subst h
      constructor <;> simp [hthread, hq] <;> intros <;> omega
  | running dispatch pcb =>
    simp only [processDispatch, hthread] at h
    split at h
    · simp only [Option.bind_eq_bind, Option.bind_eq_some_iff] at h
      obtain ⟨⟨cpu, pcb', access⟩, hcycle, h⟩ := h
      have hid := instruction_cycle_identity hcycle
      simp only [Option.some.injEq] at h
      subst h
      constructor <;> simp [hthread, hid]
    · simp only [Option.some.injEq] at h
      subst h
      constructor <;> simp [hthread]
  | leaving dispatch pcb =>
    obtain ⟨cpu, package, hpackage⟩ := hleave dispatch pcb hthread
    have hpcb := leave_process_pcb hpackage
    simp only [processDispatch, hthread, hpackage, Option.some.injEq] at h
    subst h
    constructor <;> simp [hthread, hpcb]
  | sending reply =>
    simp only [processDispatch, hthread, Option.some.injEq] at h
    subst h
    constructor <;> simp [hthread] <;> intros <;> omega

theorem process_interrupt_keeps (cfg : KernelConfig) {s t : System}
    (h : processInterrupt s = some t) : Keeps cfg 0 s t := by
  obtain ⟨dispatch, rest, -, rfl⟩ := process_interrupt_cases h
  constructor <;> simp

theorem memoria_keeps (cfg : KernelConfig) {s t : System} {segments : List Segment}
    (h : memoria s segments = some t) : Keeps cfg 0 s t := by
  obtain ⟨request, rest, hq, rfl⟩ := memoria_cases h
  cases request
  all_goals constructor <;> simp [memoryAnswer, hq, identity] <;> intros <;> omega

end Geck.KernelLaws
