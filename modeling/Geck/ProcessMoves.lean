import Geck.KernelSoundness

/-!
# What a step does to the places

Each step of the system leaves every process where it is, creates one, or takes
one from a place to the next. A key is what one wants to know of a PCB; most
threads change nothing of a PCB but its state, and those that do are few.
-/

set_option autoImplicit false

namespace Geck.ProcessMoves
open Geck.Tallies Geck.BlockStore Geck.SharedPcb Geck.MemoryHandlers Geck.CpuTranslation
open Geck.CpuExecution Geck.KernelState Geck.KernelThreads Geck.KernelFrames Geck.KernelLedger
open Geck.KernelLaws Geck.KernelInvariant Geck.KernelSoundness

/-- From a place to the next; a process is created in NEW. -/
def transition : Option Place → Place → Bool
  | none, .new => true
  | some .new, .ready => true
  | some .ready, .cpu => true
  | some .cpu, .ready => true
  | some .cpu, .console => true
  | some .cpu, .device => true
  | some .cpu, .pageFault => true
  | some .cpu, .exit => true
  | some .console, .ready => true
  | some .device, .ready => true
  | some .pageFault, .ready => true
  | _, _ => false

section Keys
variable {κ : Type*}

/-- The processes at a place, weighed by their keys. -/
def weigh (key : Pcb → κ) (w : κ → ℤ) (s : System) (place : Place) : ℤ :=
  total (fun pcb => w (key pcb)) (processesAt s place)

/-- What a step does to the places: nothing, a new process, or one process moved. -/
inductive Moved (key : Pcb → κ) (s t : System) : Prop
  | stays (hcreated : t.created = s.created)
      (hplaces : ∀ w place, weigh key w t place = weigh key w s place)
  | born (pcb : Pcb) (hcreated : t.created = s.created++[identity pcb])
      (hplaces : ∀ w place, weigh key w t place =
        weigh key w s place+if place = .new then w (key pcb) else 0)
  | moves (k : κ) (a b : Place) (htransition : transition (some a) b = true)
      (hcreated : t.created = s.created)
      (hplaces : ∀ w place, weigh key w t place =
        weigh key w s place+(if place = b then w k else 0)-if place = a then w k else 0)

end Keys

attribute [local simp] weigh processesAt withConsole inDevice System.setConsole System.setDevice
  System.setPageFaultThread addToReady

section Threads
variable {κ : Type*} {key : Pcb → κ} {cfg : KernelConfig} {s t : System}
  (hkey : ∀ pcb status, key (changePcbStateTo pcb status) = key pcb)
include hkey

theorem receive_console_moved {i : ℕ} {c : Console} (hc : s.consoles[i]? = some c)
    (h : receiveConsole cfg s i c = some t) : Moved key s t := by
  cases hthread : c.thread with
  | receive =>
    cases hk : c.toKernel with
    | nil => simp [receiveConsole, hthread, hk] at h
    | cons request rest =>
      cases request with
      | initProcess instructions segments =>
        simp only [receiveConsole, hthread, hk, Option.some.injEq] at h
        subst h
        refine .born (pcbCreate instructions i s.pidCounter segments) rfl fun w place => ?_
        cases place <;> simp [total_set _ hc, hthread, hk]
        omega
      | ioScreenResponse pcb | ioKeyboardResponse pcb =>
        simp only [receiveConsole, hthread, hk, Option.some.injEq] at h
        subst h
        refine .stays rfl fun w place => ?_
        cases place <;> simp [total_set _ hc, hthread, hk]
        omega
  | created pcb =>
    simp only [receiveConsole, hthread, Option.some.injEq] at h
    subst h
    refine .stays rfl fun w place => ?_
    cases place <;> simp [total_set _ hc, hthread, hkey]
  | returned pcb =>
    simp only [receiveConsole, hthread, Option.some.injEq] at h
    subst h
    refine .moves (key pcb) .console .ready rfl ?_ fun w place => ?_
    · cases halg : cfg.algoritmoPlanificacion <;> simp [halg]
    · cases halg : cfg.algoritmoPlanificacion
      all_goals
        cases place <;> simp [total_set _ hc, hthread, halg, hkey]
        all_goals omega
  | removeNew =>
    cases hn : s.listNew with
    | nil => simp [receiveConsole, scheduleNextToReady, hthread, hn] at h
    | cons pcb rest =>
      simp only [receiveConsole, scheduleNextToReady, hthread, hn, Option.some.injEq] at h
      subst h
      refine .moves (key pcb) .new .ready rfl rfl fun w place => ?_
      cases place <;> simp [total_set _ hc, hthread, hn]
      omega
  | addReady pcb =>
    simp only [receiveConsole, scheduleNextToReady, hthread, Option.some.injEq] at h
    subst h
    refine .stays ?_ fun w place => ?_
    · cases halg : cfg.algoritmoPlanificacion <;> simp [halg]
    · cases halg : cfg.algoritmoPlanificacion
      all_goals
        cases place <;> simp [total_set _ hc, hthread, halg, hkey]
        omega
  | _ =>
    simp only [receiveConsole, scheduleNextToReady, hthread] at h
    repeat' split at h
    all_goals simp only [Option.some.injEq, reduceCtorEq] at h
    all_goals subst h
    all_goals
      refine .stays rfl fun w place => ?_
      cases place <;> simp [total_set _ hc, hthread]

omit hkey in
/-- The keyboard of a process changes its registers. -/
theorem consola_moved {i : ℕ} {c : Console} {value : UInt32} (hc : s.consoles[i]? = some c)
    (hregisters : ∀ (pcb : Pcb) registers, key { pcb with cpuRegisters := registers } = key pcb)
    (hio : ∀ message ∈ c.toConsole, IoRequest message) (h : consola s i c value = some t) :
    Moved key s t := by
  cases hend : c.ended with
  | true => simp [consola, hend] at h
  | false =>
  cases hk : c.toConsole with
  | nil => simp [consola, hend, hk] at h
  | cons message rest =>
  have hmessage := hio message (by simp [hk])
  cases message with
  | io package =>
    cases package
    case ioScreen | ioKeyboard =>
      simp only [consola, hend, hk, Bool.false_eq_true, if_false, Option.some.injEq] at h
      subst h
      refine .stays rfl fun w place => ?_
      cases place <;> simp [total_set _ hc, hk, hregisters]
      omega
    all_goals exact hmessage.elim
  | endConsole | endConsoleSegFault =>
    simp only [consola, hend, hk, Bool.false_eq_true, if_false, Option.some.injEq] at h
    subst h
    refine .stays rfl fun w place => ?_
    cases place <;> simp [total_set _ hc, hk]

theorem schedule_next_to_running_moved (hchooses : Chooses cfg s)
    (h : scheduleNextToRunning cfg s = some t) : Moved key s t := by
  cases hthread : s.shortTermScheduler with
  | choose =>
    cases halg : cfg.algoritmoPlanificacion with
    | fifo | rr =>
      cases hq : s.listReady with
      | nil => simp [scheduleNextToRunning, hthread, halg, hq] at h
      | cons pcb rest =>
        simp only [scheduleNextToRunning, hthread, halg, hq, Option.some.injEq] at h
        subst h
        refine .moves (key pcb) .ready .cpu rfl rfl fun w place => ?_
        cases place <;> simp [hthread, hq]
        omega
    | feedback =>
      cases hq : s.listReadyRr with
      | nil =>
        simp only [scheduleNextToRunning, hthread, halg, hq, Option.some.injEq] at h
        subst h
        refine .stays rfl fun w place => ?_
        cases place <;> simp [hthread, hq]
      | cons pcb rest =>
        simp only [scheduleNextToRunning, hthread, halg, hq, Option.some.injEq] at h
        subst h
        refine .moves (key pcb) .ready .cpu rfl rfl fun w place => ?_
        cases place <;> simp [hthread, hq] <;> omega
  | chooseFifo =>
    cases hq : s.listReadyFifo with
    | nil => exact absurd hq (hchooses hthread).2
    | cons pcb rest =>
      simp only [scheduleNextToRunning, hthread, hq, Option.some.injEq] at h
      subst h
      refine .moves (key pcb) .ready .cpu rfl rfl fun w place => ?_
      cases place <;> simp [hthread, hq] <;> omega
  | send pcb timed =>
    simp only [scheduleNextToRunning, hthread, Option.some.injEq] at h
    subst h
    refine .stays rfl fun w place => ?_
    cases timed
    all_goals
      cases place <;> simp [hthread]
      omega
  | waitReady | waitCpuFree =>
    simp only [scheduleNextToRunning, hthread, Option.ite_none_right_eq_some, Option.some.injEq] at h
    obtain ⟨-, rfl⟩ := h
    refine .stays rfl fun w place => ?_
    cases place <;> simp [hthread]
  | addRunning pcb timed =>
    simp only [scheduleNextToRunning, hthread, Option.some.injEq] at h
    subst h
    refine .stays rfl fun w place => ?_
    cases place <;> simp [hthread, hkey]
  | postBeggin dispatch | setUltimo timed =>
    simp only [scheduleNextToRunning, hthread, Option.some.injEq] at h
    subst h
    refine .stays rfl fun w place => ?_
    cases place <;> simp [hthread]

omit hkey in
/-- A console that is told about the end of its process gets no process. -/
theorem told_moved {clientSocket : ℤ} {message : ConsoleMessage} {next : ThreadDispatch}
    {package : CpuPackage} (hthread : s.threadDispatch = .sendEnd package)
    (hmessage : requested message = []) (hnext : next = .receive ∨ next = .sendMemory package) :
    Moved key s { sendToConsole s clientSocket message with threadDispatch := next } := by
  unfold sendToConsole
  cases hc : listGet s.consoles clientSocket with
  | none =>
    rcases hnext with rfl | rfl
    all_goals
      refine .stays rfl fun w place => ?_
      cases place <;> simp [hthread]
  | some c =>
    have hset := (list_get_some hc).2
    rcases hnext with rfl | rfl
    all_goals
      refine .stays rfl fun w place => ?_
      cases place <;> simp [total_set _ hset, hthread, hmessage]

/-- The I/O request that a console gets is about the process of the package. -/
theorem io_message_key (package : CpuPackage) :
    ∃ p, ioMessage package = .io p ∧ key (packagePcb p) = key (packagePcb package) := by
  cases package with
  | ioScreen pcb device parameter | ioKeyboard pcb device parameter =>
    refine ⟨_, rfl, ?_⟩
    rw [send_pcb_io_package_pcb]
    exact hkey _ _
  | _ => exact ⟨_, rfl, rfl⟩

theorem manage_dispatch_moved (hfits : Fits s.threadDispatch)
    (hsocket : ∀ pcb ∈ leavingCpu s.threadDispatch,
      ∃ c, listGet s.consoles pcb.clientSocket = some c)
    (hfifo : ∀ pcb, s.threadDispatch = .addReady pcb → cfg.algoritmoPlanificacion ≠ .fifo)
    (h : manageDispatch cfg s = some t) : Moved key s t := by
  cases hthread : s.threadDispatch with
  | receive =>
    cases hr : s.fromCpu with
    | nil => simp [manageDispatch, hthread, hr] at h
    | cons reply rest =>
      simp only [manageDispatch, hthread, hr, Option.some.injEq] at h
      subst h
      cases hexits : exits reply.package with
      | true =>
        refine .moves (key (packagePcb reply.package)) .cpu .exit rfl rfl fun w place => ?_
        cases place <;> simp [hthread, hr, hexits]
        omega
      | false =>
        refine .stays rfl fun w place => ?_
        cases place <;> simp [hthread, hr, hexits]
        omega
  | postFree package =>
    simp only [manageDispatch, hthread, Option.some.injEq] at h
    subst h
    refine .stays rfl fun w place => ?_
    cases package
    all_goals cases place <;> simp [hthread, afterFree]
  | lockOut package =>
    simp only [manageDispatch, hthread, Option.ite_none_left_eq_some, Option.some.injEq] at h
    obtain ⟨-, rfl⟩ := h
    refine .stays rfl fun w place => ?_
    cases place <;> simp [hthread]
  | setFlag package =>
    cases hu : s.ultimo with
    | none => simp [manageDispatch, hthread, hu] at h
    | some u =>
      simp only [manageDispatch, hthread, hu, Option.some.injEq] at h
      subst h
      refine .stays rfl fun w place => ?_
      cases place <;> simp [hthread]
  | unlockOut package =>
    simp only [manageDispatch, hthread, Option.some.injEq] at h
    subst h
    refine .stays rfl fun w place => ?_
    cases package
    all_goals cases place <;> simp [hthread, afterFlag]
  | sendConsole package =>
    obtain ⟨c, hc⟩ := hsocket (packagePcb package) (by simp [hthread])
    have hset := (list_get_some hc).2
    obtain ⟨p, hp, hsame⟩ := io_message_key hkey package
    simp only [manageDispatch, hthread, sendToConsole, hc, hp, Option.some.injEq] at h
    subst h
    refine .moves (key (packagePcb package)) .cpu .console rfl rfl fun w place => ?_
    cases place <;> simp [total_set _ hset, hthread, hsame]
    all_goals omega
  | addBlocked pcb device parameter =>
    simp only [manageDispatch, hthread, Option.some.injEq] at h
    subst h
    refine .stays rfl fun w place => ?_
    cases place <;> simp [hthread, hkey]
  | addTime pcb device parameter =>
    obtain ⟨i, d, -, hd, rfl⟩ := add_time_some hthread h
    refine .stays rfl fun w place => ?_
    cases place <;> simp [hthread, total_set _ hd]
  | addProcess pcb i =>
    obtain ⟨d, hd, rfl⟩ := add_process_some hthread h
    refine .moves (key pcb) .cpu .device rfl rfl fun w place => ?_
    cases place <;> simp [hthread, total_set _ hd]
    all_goals omega
  | postDevice i =>
    obtain ⟨d, hd, rfl⟩ := post_device_some hthread h
    refine .stays rfl fun w place => ?_
    cases place <;> simp [hthread, total_set _ hd]
  | removeRunning package =>
    have hleaves : LeavesRunning package := by simpa [Fits, hthread] using hfits
    simp only [manageDispatch, hthread, Option.some.injEq] at h
    subst h
    refine .stays rfl fun w place => ?_
    cases package
    case ioScreen | ioKeyboard | ioDefault => exact hleaves.elim
    all_goals cases place <;> simp [hthread, afterRunning]
  | addReady pcb =>
    cases halg : cfg.algoritmoPlanificacion with
    | fifo => exact absurd halg (hfifo pcb hthread)
    | rr | feedback =>
      simp only [manageDispatch, hthread, halg, Option.some.injEq] at h
      subst h
      refine .moves (key pcb) .cpu .ready rfl rfl fun w place => ?_
      cases place <;> simp [hthread, hkey] <;> omega
  | postReady =>
    simp only [manageDispatch, hthread, Option.some.injEq] at h
    subst h
    refine .stays rfl fun w place => ?_
    cases place <;> simp [hthread]
  | addExit package =>
    have hexits : exits package = true := by simpa [Fits, hthread] using hfits
    simp only [manageDispatch, hthread, Option.some.injEq] at h
    subst h
    refine .stays rfl fun w place => ?_
    cases package <;> simp at hexits
    all_goals cases place <;> simp [hthread, hkey]
  | postGrado package | sendMemory package =>
    have hexits : exits package = true := by simpa [Fits, hthread] using hfits
    simp only [manageDispatch, hthread, Option.some.injEq] at h
    subst h
    refine .stays rfl fun w place => ?_
    cases package <;> simp at hexits
    all_goals cases place <;> simp [hthread]
  | sendEnd package =>
    cases package
    all_goals
      simp only [manageDispatch, hthread, Option.some.injEq] at h
      subst h
    case segFault => exact told_moved hthread rfl (Or.inr rfl)
    all_goals exact told_moved hthread rfl (Or.inl rfl)
  | createThread pcb segment page =>
    simp only [manageDispatch, hthread, Option.some.injEq] at h
    subst h
    refine .moves (key pcb) .cpu .pageFault rfl rfl fun w place => ?_
    cases place <;> simp [hthread]
    all_goals omega

theorem manage_memory_moved (hcopy : ∀ pcb, s.threadMemory = .replaceNew pcb →
      ∃ head rest, s.listNew = head::rest ∧ key pcb = key head)
    (h : manageMemory cfg s = some t) : Moved key s t := by
  cases hthread : s.threadMemory with
  | receive =>
    cases hr : s.fromMemory with
    | nil => simp [manageMemory, hthread, hr] at h
    | cons response rest =>
      cases response
      all_goals
        simp only [manageMemory, hthread, hr, Option.some.injEq] at h
        subst h
        refine .stays rfl fun w place => ?_
        cases place <;> simp [hthread, hr] <;> omega
  | replaceNew pcb =>
    obtain ⟨head, rest, hn, hid⟩ := hcopy pcb hthread
    simp only [manageMemory, hthread, hn, list_replace_zero, Option.some.injEq] at h
    subst h
    refine .stays rfl fun w place => ?_
    cases place <;> simp [hthread, hn, hid]
  | addReady pcb =>
    simp only [manageMemory, hthread, Option.some.injEq] at h
    subst h
    refine .moves (key pcb) .pageFault .ready rfl ?_ fun w place => ?_
    · cases halg : cfg.algoritmoPlanificacion <;> simp [halg]
    · cases halg : cfg.algoritmoPlanificacion
      all_goals cases place <;> simp [hthread, halg, hkey] <;> omega
  | postInit | postReady | unlockPageFault =>
    simp only [manageMemory, hthread, Option.some.injEq] at h
    subst h
    refine .stays rfl fun w place => ?_
    cases place <;> simp [hthread]

theorem resolve_page_fault_moved {i : ℕ} {p : PageFaultThread}
    (hp : s.pageFaultThreads[i]? = some p) (h : resolvePageFault s i p = some t) : Moved key s t := by
  cases p with
  | lock pcb segmentNumber pageNumber =>
    simp only [resolvePageFault, Option.ite_none_left_eq_some, Option.some.injEq] at h
    obtain ⟨-, rfl⟩ := h
    refine .stays rfl fun w place => ?_
    cases place <;> simp [total_set _ hp, hkey]
  | send pcb segmentNumber pageNumber =>
    simp only [resolvePageFault, Option.some.injEq] at h
    subst h
    refine .stays rfl fun w place => ?_
    cases place <;> simp [total_set _ hp]
    omega
  | finished => simp [resolvePageFault] at h

theorem simulate_io_default_moved {i : ℕ} {d : Device} (hd : s.devices[i]? = some d)
    (h : simulateIoDefault cfg s i d = some t) : Moved key s t := by
  cases hthread : d.thread with
  | wait =>
    simp only [simulateIoDefault, hthread, Option.ite_none_right_eq_some, Option.some.injEq] at h
    obtain ⟨-, rfl⟩ := h
    refine .stays rfl fun w place => ?_
    cases place <;> simp [total_set _ hd, hthread]
  | removeTime =>
    cases hl : d.listProcesses with
    | nil => simp [simulateIoDefault, hthread, hl] at h
    | cons item rest =>
      cases item with
      | process pcb => simp [simulateIoDefault, hthread, hl] at h
      | time parameter =>
        simp only [simulateIoDefault, hthread, hl, Option.some.injEq] at h
        subst h
        refine .stays rfl fun w place => ?_
        cases place <;> simp [total_set _ hd, hthread, hl]
  | removeProcess time =>
    cases hl : d.listProcesses with
    | nil => simp [simulateIoDefault, hthread, hl] at h
    | cons item rest =>
      cases item with
      | time parameter => simp [simulateIoDefault, hthread, hl] at h
      | process pcb =>
        simp only [simulateIoDefault, hthread, hl, Option.some.injEq] at h
        subst h
        refine .stays rfl fun w place => ?_
        cases place <;> simp [total_set _ hd, hthread, hl]
        omega
  | serving time pcb =>
    simp only [simulateIoDefault, hthread, Option.some.injEq] at h
    subst h
    refine .moves (key pcb) .device .ready rfl ?_ fun w place => ?_
    · cases halg : cfg.algoritmoPlanificacion <;> simp [halg]
    · cases halg : cfg.algoritmoPlanificacion
      all_goals cases place <;> simp [total_set _ hd, hthread, halg, hkey] <;> omega
  | postReady =>
    simp only [simulateIoDefault, hthread, Option.some.injEq] at h
    subst h
    refine .stays rfl fun w place => ?_
    cases place <;> simp [total_set _ hd, hthread]

omit hkey in
theorem instruction_cycle_key (hinstruction : ∀ (pcb : Pcb), key (updateProgramCounter pcb) = key pcb)
    {cfg : CpuConfig} {answers : Answers} {cpu cpu' : Cpu} {pcb pcb' : Pcb} {access : Option Access}
    (h : instructionCycle cfg answers cpu pcb = some (cpu', pcb', access)) : key pcb' = key pcb := by
  simp only [instructionCycle, Option.bind_eq_bind, Option.bind_eq_some_iff] at h
  obtain ⟨_, _, ⟨_, _⟩, _, h⟩ := h
  simp only [Option.some.injEq, Prod.mk.injEq] at h
  obtain ⟨_, rfl, _⟩ := h
  split
  · rfl
  · exact hinstruction pcb

omit hkey in
/-- An instruction and the saving of the context change the PCB. -/
theorem process_dispatch_moved {answers : Answers}
    (hinstruction : ∀ (pcb : Pcb), key (updateProgramCounter pcb) = key pcb)
    (hregisters : ∀ (pcb : Pcb) registers, key { pcb with cpuRegisters := registers } = key pcb)
    (hleave : ∀ dispatch pcb, s.cpuThread = .leaving dispatch pcb →
      ∃ cpu package, leaveProcess s.cpu pcb = (cpu, some package))
    (h : processDispatch cfg s answers = some t) : Moved key s t := by
  cases hthread : s.cpuThread with
  | receive =>
    cases hq : s.toCpu with
    | nil => simp [processDispatch, hthread, hq] at h
    | cons sent rest =>
      simp only [processDispatch, hthread, hq, Option.some.injEq] at h
      subst h
      refine .stays rfl fun w place => ?_
      cases place <;> simp [hthread, hq]
      omega
  | running dispatch pcb =>
    simp only [processDispatch, hthread] at h
    split at h
    · simp only [Option.bind_eq_bind, Option.bind_eq_some_iff] at h
      obtain ⟨⟨cpu, pcb', access⟩, hcycle, h⟩ := h
      have hid : key pcb' = key pcb := instruction_cycle_key hinstruction hcycle
      simp only [Option.some.injEq] at h
      subst h
      refine .stays rfl fun w place => ?_
      cases place <;> simp [hthread, hid]
    · have hsaved : key (saveContextPcb s.cpu pcb) = key pcb := hregisters pcb s.cpu.registers
      simp only [Option.some.injEq] at h
      subst h
      refine .stays rfl fun w place => ?_
      cases place <;> simp [hthread, hsaved]
  | leaving dispatch pcb =>
    obtain ⟨cpu, package, hpackage⟩ := hleave dispatch pcb hthread
    have hpcb := leave_process_pcb hpackage
    simp only [processDispatch, hthread, hpackage, Option.some.injEq] at h
    subst h
    refine .stays rfl fun w place => ?_
    cases place <;> simp [hthread, hpcb]
  | sending reply =>
    simp only [processDispatch, hthread, Option.some.injEq] at h
    subst h
    refine .stays rfl fun w place => ?_
    cases place <;> simp [hthread]
    omega

omit hkey in
theorem memoria_moved {segments : List Segment} (h : memoria s segments = some t) : Moved key s t := by
  obtain ⟨request, rest, hq, rfl⟩ := memoria_cases h
  refine .stays rfl fun w place => ?_
  cases request
  all_goals cases place <;> simp [memoryAnswer, hq]
  all_goals omega

/-- The steps in which a PCB changes by more than its state. -/
def alters : Event → Bool
  | .console _ _ => true
  | .manageMemory => true
  | .processDispatch _ => true
  | _ => false

theorem plain_moved {e : Event} (hs : Sound cfg s) (he : alters e = false)
    (h : step cfg s e = some t) : Moved key s t := by
  cases e with
  | console i value => cases he
  | manageMemory => cases he
  | processDispatch answers => cases he
  | connect instructions segments =>
    obtain rfl := Option.some.inj h
    refine .stays rfl fun w place => ?_
    cases place <;> simp [connect]
  | receiveConsole i =>
    obtain ⟨c, hc, h⟩ := Option.bind_eq_some_iff.mp h
    exact receive_console_moved hkey hc h
  | scheduleNextToRunning => exact schedule_next_to_running_moved hkey hs.chooses h
  | manageDispatch =>
    refine manage_dispatch_moved hkey (handles_fits hs.packages.handles) (fun pcb hpcb => ?_)
      (fun pcb hthread halg => ?_) h
    · have hplace : pcb ∈ processesAt s .cpu := List.mem_append_right _ hpcb
      exact socket_found hs.balanced hs.registered hplace
    · have := (hs.untimed halg).dispatch
      rwa [hthread] at this
  | manageInterrupt =>
    obtain ⟨_, _, _, _, rfl⟩ := manage_interrupt_frame h
    exact .stays rfl fun w place => by cases place <;> rfl
  | countQuantum expired =>
    obtain ⟨_, _, _, _, _, _, rfl⟩ := count_quantum_frame h
    exact .stays rfl fun w place => by cases place <;> rfl
  | resolvePageFault i =>
    obtain ⟨p, hp, h⟩ := Option.bind_eq_some_iff.mp h
    exact resolve_page_fault_moved hkey hp h
  | simulateIo i =>
    obtain ⟨d, hd, h⟩ := Option.bind_eq_some_iff.mp h
    exact simulate_io_default_moved hkey hd h
  | processInterrupt =>
    obtain ⟨_, _, -, rfl⟩ := process_interrupt_cases h
    exact .stays rfl fun w place => by cases place <;> rfl
  | memoria segments => exact memoria_moved h

omit hkey in
theorem step_moved {e : Event} (hs : Sound cfg s) (h : step cfg s e = some t) :
    Moved identity s t := by
  by_cases he : alters e = false
  · exact plain_moved (fun _ _ => rfl) hs he h
  cases e with
  | console i value =>
    obtain ⟨c, hc, h⟩ := Option.bind_eq_some_iff.mp h
    exact consola_moved hc (fun _ _ => rfl) (hs.messages c (List.mem_of_getElem? hc)) h
  | manageMemory =>
    refine manage_memory_moved (fun _ _ => rfl) (fun pcb hthread => ?_) h
    exact head_of_copy hs.heads (by simp [pendingCopies, copies, hthread])
  | processDispatch answers =>
    refine process_dispatch_moved (fun _ => rfl) (fun _ _ => rfl) (fun dispatch pcb hthread => ?_) h
    obtain ⟨cpu, package, hpackage, _⟩ := leaving_flags hs.flags hthread
    exact ⟨cpu, package, hpackage⟩
  | _ => exact absurd rfl he

end Threads

end Geck.ProcessMoves
