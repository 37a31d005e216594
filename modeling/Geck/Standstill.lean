import Geck.ConsoleDialogue
import Geck.DeviceQueues
import Geck.MemoryDegree
import Geck.QuantumHandshake
import Geck.SharedSections

/-!
# Where the system can come to a stop

A state in which no thread, peer or user can move is either the end of all
processes or one of a few known stops. Each thread is asked what it waits for,
and the counts of the ledger rule out every wait whose token is still to come.
-/

set_option autoImplicit false

namespace Geck.Standstill
open Geck.LabelledRuns Geck.Tallies Geck.BlockStore Geck.SharedPcb Geck.MemoryHandlers
open Geck.CpuTranslation Geck.CpuExecution Geck.KernelState Geck.KernelThreads Geck.KernelFrames
open Geck.KernelLedger Geck.KernelLaws Geck.KernelInvariant Geck.KernelSoundness
open Geck.ConsoleDialogue Geck.DeviceQueues Geck.MemoryDegree Geck.QuantumHandshake
open Geck.SharedSections

/-- A new console may still connect; nothing else is outside the system. -/
def arrives : Event → Bool
  | .connect _ _ => true
  | _ => false

def Still (cfg : KernelConfig) (s : System) : Prop :=
  ∀ e, arrives e = false → step cfg s e = none

/-- Every process is in EXIT and every console was told. -/
structure Finished (s : System) : Prop where
  exited : ∀ place, place ≠ .exit → processesAt s place = []
  told : ∀ c ∈ s.consoles, c.ended = true

/-- The CPU dereferences a null pointer in the instruction, whatever memory answers. -/
def Crashed (cfg : KernelConfig) (s : System) : Prop :=
  ∃ dispatch pcb, s.cpuThread = .running dispatch pcb ∧ keepsRunning s.cpu = true ∧
    ∀ answers, instructionCycle cfg.cpu answers s.cpu pcb = none

/-- A process asked for a device that is not in the configuration. -/
def Unconfigured (cfg : KernelConfig) (s : System) : Prop :=
  ∃ pcb device parameter, s.threadDispatch = .addTime pcb device parameter ∧
    device ∉ (initDeviceConfigDictionary cfg).map Device.deviceName

/-- Processes are ready and the scheduler waits: their tokens were never posted. -/
def Forgotten (cfg : KernelConfig) (s : System) : Prop :=
  cfg.algoritmoPlanificacion = .feedback ∧ readyQueues cfg s ≠ [] ∧
    s.semProcessInReady = 0 ∧ s.shortTermScheduler = .waitReady

/-- No process is ready, on its way to the CPU, on it or on its way back, and every device is idle. -/
structure Resting (s : System) : Prop where
  ready : processesAt s .ready = []
  cpu : processesAt s .cpu = []
  device : processesAt s .device = []
  pageFault : processesAt s .pageFault = []
  scheduler : s.shortTermScheduler = .waitReady ∧ s.semProcessInReady = 0
  dispatch : s.threadDispatch = .receive
  owed : KernelLedger.owed s = 0

/-- The degree is used up by processes whose I/O is over, and the threads that would
take them back to READY are admitting the processes of NEW, for which they wait. -/
structure AdmissionDeadlock (cfg : KernelConfig) (s : System) : Prop where
  rest : Resting s
  waits : ∃ c ∈ s.consoles, c.thread = .waitGrado
  degree : s.semGradoMultiprogamacion = 0
  full : (processesAt s .console).length = cfg.gradoMaxMultiprogramacion
  held : ∀ c ∈ s.consoles, ∀ pcb ∈ withConsole c, pcb ∈ c.toKernel.flatMap answered ∧
    (c.thread = .waitGrado ∨ c.thread = .waitScheduleReady)

instance (s : System) : Decidable (Resting s) :=
  decidable_of_iff (processesAt s .ready = [] ∧ processesAt s .cpu = [] ∧ processesAt s .device = [] ∧
    processesAt s .pageFault = [] ∧ (s.shortTermScheduler = .waitReady ∧ s.semProcessInReady = 0) ∧
    s.threadDispatch = .receive ∧ KernelLedger.owed s = 0)
    ⟨fun ⟨hr, hc, hd, hp, hs, ht, ho⟩ => ⟨hr, hc, hd, hp, hs, ht, ho⟩,
      fun ⟨hr, hc, hd, hp, hs, ht, ho⟩ => ⟨hr, hc, hd, hp, hs, ht, ho⟩⟩

instance (cfg : KernelConfig) (s : System) : Decidable (AdmissionDeadlock cfg s) :=
  decidable_of_iff (Resting s ∧ (∃ c ∈ s.consoles, c.thread = .waitGrado) ∧
    s.semGradoMultiprogamacion = 0 ∧
    (processesAt s .console).length = cfg.gradoMaxMultiprogramacion ∧
    ∀ c ∈ s.consoles, ∀ pcb ∈ withConsole c, pcb ∈ c.toKernel.flatMap answered ∧
      (c.thread = .waitGrado ∨ c.thread = .waitScheduleReady))
    ⟨fun ⟨hr, hw, hd, hf, hh⟩ => ⟨hr, hw, hd, hf, hh⟩, fun ⟨hr, hw, hd, hf, hh⟩ => ⟨hr, hw, hd, hf, hh⟩⟩

/-- A console, and its thread, that wait for the kernel. -/
def ConsoleIdle (s : System) (c : Console) : Prop :=
  (c.ended = true ∨ c.toConsole = []) ∧
    ((c.thread = .receive ∧ c.toKernel = []) ∨
      (c.thread = .waitScheduleReady ∧ s.semScheduleReady = 0) ∨
      (c.thread = .waitGrado ∧ s.semGradoMultiprogamacion = 0))

/-- Every thread waits for something that is not there. -/
def Idle (s : System) : Prop :=
  (s.toMemory = [] ∧ s.fromMemory = [] ∧ s.threadMemory = .receive) ∧
    (∀ p ∈ s.pageFaultThreads, p = .finished) ∧
    (s.interrupts = [] ∧ s.semInterruptionQuantum = [] ∧ s.threadInterrupt = .wait) ∧
    (s.toCpu = [] ∧ s.cpuThread = .receive) ∧ (s.fromCpu = [] ∧ s.threadDispatch = .receive) ∧
    (s.semProcessInReady = 0 ∧ s.shortTermScheduler = .waitReady) ∧
    (∀ d ∈ s.devices, d.semDevices = 0 ∧ d.thread = .wait) ∧ ∀ c ∈ s.consoles, ConsoleIdle s c

instance (s : System) (c : Console) : Decidable (ConsoleIdle s c) := inferInstanceAs (Decidable (_ ∧ _))

instance (s : System) : Decidable (Idle s) := inferInstanceAs (Decidable (_ ∧ _))

section Waits
variable {cfg : KernelConfig} {s : System}

theorem memoria_waits (h : memoria s [] = none) : s.toMemory = [] := by
  cases hq : s.toMemory with
  | nil => rfl
  | cons request rest => simp [memoria, hq] at h

theorem manage_interrupt_waits (h : manageInterrupt s = none) :
    s.threadInterrupt = .wait ∧ s.semInterruptionQuantum = [] := by
  unfold manageInterrupt at h
  split at h
  · next hthread =>
    split at h
    · next hq => exact ⟨hthread, hq⟩
    · simp at h
  all_goals simp at h

theorem manage_memory_waits (h : manageMemory cfg s = none) :
    s.threadMemory = .receive ∧ s.fromMemory = [] := by
  unfold manageMemory at h
  split at h
  · next hthread =>
    split at h
    · next hq => exact ⟨hthread, hq⟩
    all_goals simp at h
  all_goals simp at h

theorem resolve_page_fault_waits {i : ℕ} {p : PageFaultThread} (h : resolvePageFault s i p = none) :
    waitingFault p = [] ∨ s.mResolvePageFault = true := by
  cases p with
  | lock pcb segment page =>
    right
    by_contra hopen
    simp [resolvePageFault, hopen] at h
  | send pcb segment page => simp [resolvePageFault] at h
  | finished => exact Or.inl rfl

/-- Inside its section the timer waits only for the end of the handshake. -/
theorem count_quantum_waits (hclock : cfg.algoritmoPlanificacion = .fifo → s.switcherClock = .startLock)
    (h : countQuantumOfRoundRobin cfg s false = none) (hinside : clockInside s.switcherClock = true) :
    s.switcherClock = .waitFinish ∧ s.semInterruptionQuantumFinish = 0 := by
  have halg : cfg.algoritmoPlanificacion ≠ .fifo := by
    intro hfifo
    simp [hclock hfifo, clockInside] at hinside
  cases hthread : s.switcherClock with
  | waitFinish =>
    refine ⟨rfl, ?_⟩
    by_contra hpos
    simp [countQuantumOfRoundRobin, halg, hthread, Nat.pos_of_ne_zero hpos] at h
  | startReset | startUnlock | unlock running =>
    simp [countQuantumOfRoundRobin, halg, hthread] at h
  | test dispatch =>
    simp only [countQuantumOfRoundRobin, halg, hthread, if_false] at h
    split at h <;> simp at h
  | _ => simp [hthread, clockInside] at hinside

theorem manage_dispatch_waits (h : manageDispatch cfg s = none) :
    (s.threadDispatch = .receive ∧ s.fromCpu = []) ∨
    (s.mOutOfRunning = true ∧ dispatchInside s.threadDispatch = false) ∨
    (s.ultimo = none ∧ s.threadDispatch ≠ .receive) ∨
    (∃ pcb device parameter, s.threadDispatch = .addTime pcb device parameter ∧
      ∀ i, dictionaryGet s.devices device = some i → s.devices[i]? = none) ∨
    ∃ i, attaching s.threadDispatch = some i ∧ s.devices[i]? = none := by
  cases hthread : s.threadDispatch with
  | receive =>
    left
    cases hq : s.fromCpu with
    | nil => exact ⟨rfl, rfl⟩
    | cons reply rest => simp [manageDispatch, hthread, hq] at h
  | lockOut package =>
    right; left
    refine ⟨?_, rfl⟩
    by_contra hopen
    simp [manageDispatch, hthread, hopen] at h
  | setFlag package =>
    right; right; left
    cases hultimo : s.ultimo with
    | none => exact ⟨rfl, by simp⟩
    | some u => simp [manageDispatch, hthread, hultimo] at h
  | addTime pcb device parameter =>
    right; right; right; left
    refine ⟨pcb, device, parameter, rfl, fun i hi => ?_⟩
    cases hd : s.devices[i]? with
    | none => rfl
    | some d => simp [manageDispatch, hthread, hi, hd] at h
  | addProcess pcb i | postDevice i =>
    right; right; right; right
    refine ⟨i, rfl, ?_⟩
    cases hd : s.devices[i]? with
    | none => rfl
    | some d => simp [manageDispatch, hthread, hd] at h
  | addReady pcb => cases halg : cfg.algoritmoPlanificacion <;> simp [manageDispatch, hthread, halg] at h
  | sendEnd package => cases package <;> simp [manageDispatch, hthread] at h
  | _ => simp [manageDispatch, hthread] at h

theorem schedule_next_to_running_waits (h : scheduleNextToRunning cfg s = none) :
    (s.shortTermScheduler = .waitReady ∧ s.semProcessInReady = 0) ∨
    (s.shortTermScheduler = .waitCpuFree ∧ s.semCpuFreeToExecute = 0) ∨
    (s.shortTermScheduler = .choose ∧ readyQueues cfg s = []) := by
  cases hthread : s.shortTermScheduler with
  | waitReady =>
    left
    refine ⟨rfl, ?_⟩
    by_contra hpos
    simp [scheduleNextToRunning, hthread, Nat.pos_of_ne_zero hpos] at h
  | waitCpuFree =>
    right; left
    refine ⟨rfl, ?_⟩
    by_contra hpos
    simp [scheduleNextToRunning, hthread, Nat.pos_of_ne_zero hpos] at h
  | choose =>
    right; right
    refine ⟨rfl, ?_⟩
    cases halg : cfg.algoritmoPlanificacion with
    | fifo | rr =>
      cases hq : s.listReady with
      | nil => simp [readyQueues, halg, hq]
      | cons pcb rest => simp [scheduleNextToRunning, hthread, halg, hq] at h
    | feedback => cases hq : s.listReadyRr <;> simp [scheduleNextToRunning, hthread, halg, hq] at h
  | chooseFifo => cases hq : s.listReadyFifo <;> simp [scheduleNextToRunning, hthread, hq] at h
  | _ => simp [scheduleNextToRunning, hthread] at h

theorem process_dispatch_waits (h : ∀ answers, processDispatch cfg s answers = none) :
    (s.cpuThread = .receive ∧ s.toCpu = []) ∨ Crashed cfg s := by
  have hnone := h faulting
  cases hthread : s.cpuThread with
  | receive =>
    left
    cases hq : s.toCpu with
    | nil => exact ⟨rfl, rfl⟩
    | cons sent rest => simp [processDispatch, hthread, hq] at hnone
  | running dispatch pcb =>
    right
    cases hkeep : keepsRunning s.cpu with
    | false => simp [processDispatch, hthread, hkeep] at hnone
    | true =>
      refine ⟨dispatch, pcb, hthread, hkeep, fun answers => ?_⟩
      have hturn := h answers
      simp only [processDispatch, hthread, hkeep, if_true, Option.bind_eq_bind,
        Option.bind_eq_none_iff] at hturn
      cases hcycle : instructionCycle cfg.cpu answers s.cpu pcb with
      | none => rfl
      | some result => exact absurd (hturn result hcycle) (by simp)
  | leaving dispatch pcb =>
    simp only [processDispatch, hthread] at hnone
    split at hnone <;> simp at hnone
  | sending reply => simp [processDispatch, hthread] at hnone

theorem receive_console_waits {i : ℕ} {c : Console} (h : receiveConsole cfg s i c = none) :
    (c.thread = .receive ∧ c.toKernel = []) ∨
    (c.thread = .waitScheduleReady ∧ s.semScheduleReady = 0) ∨
    (c.thread = .waitGrado ∧ s.semGradoMultiprogamacion = 0) ∨
    (c.thread = .waitInit ∧ s.semInitProcessMemory = 0) ∨
    (willRemove c.thread = 1 ∧ s.listNew = []) := by
  cases hthread : c.thread with
  | receive =>
    left
    cases hq : c.toKernel with
    | nil => exact ⟨rfl, rfl⟩
    | cons request rest => cases request <;> simp [receiveConsole, hthread, hq] at h
  | waitScheduleReady =>
    right; left
    refine ⟨rfl, ?_⟩
    by_contra hpos
    simp [receiveConsole, hthread, Nat.pos_of_ne_zero hpos] at h
  | waitGrado =>
    right; right; left
    refine ⟨rfl, ?_⟩
    by_contra hpos
    simp [receiveConsole, scheduleNextToReady, hthread, Nat.pos_of_ne_zero hpos] at h
  | waitInit =>
    right; right; right; left
    refine ⟨rfl, ?_⟩
    by_contra hpos
    simp [receiveConsole, scheduleNextToReady, hthread, Nat.pos_of_ne_zero hpos] at h
  | getNew | removeNew =>
    right; right; right; right
    refine ⟨rfl, ?_⟩
    cases hq : s.listNew with
    | nil => rfl
    | cons pcb rest => simp [receiveConsole, scheduleNextToReady, hthread, hq] at h
  | _ => simp [receiveConsole, scheduleNextToReady, hthread] at h

theorem dictionary_get_lt {ds : List Device} {device : String} {i : ℕ}
    (h : dictionaryGet ds device = some i) : i < ds.length := by
  induction ds generalizing i with
  | nil => simp [dictionaryGet] at h
  | cons d ds ih =>
    simp only [dictionaryGet] at h
    split at h
    next j hj =>
      obtain rfl := Option.some.inj h
      exact Nat.succ_lt_succ (ih hj)
    next =>
      split at h
      · obtain rfl := Option.some.inj h
        exact Nat.succ_pos _
      · simp at h

theorem dictionary_get_none {ds : List Device} {device : String}
    (h : dictionaryGet ds device = none) : device ∉ ds.map Device.deviceName := by
  induction ds with
  | nil => simp
  | cons d ds ih =>
    simp only [dictionaryGet] at h
    split at h
    · simp at h
    · next hnone =>
      split at h
      · simp at h
      · next hname =>
        simp only [List.map_cons, List.mem_cons, not_or]
        exact ⟨fun heq => hname heq.symm, ih hnone⟩

end Waits

/-- What the threads keep, put together. -/
structure Kept (cfg : KernelConfig) (s : System) : Prop where
  sound : Sound cfg s
  sections : Sections cfg s
  dialogue : Dialogue s
  names : deviceNames s = (initDeviceConfigDictionary cfg).map Device.deviceName

theorem boot_kept (cfg : KernelConfig) (time : TimeVal) : Kept cfg (boot cfg time) :=
  ⟨boot_sound cfg time, boot_sections cfg time, boot_dialogue cfg time, rfl⟩

theorem step_kept {cfg : KernelConfig} {s t : System} {e : Event} (hs : Kept cfg s)
    (h : step cfg s e = some t) : Kept cfg t :=
  ⟨step_sound hs.sound h, step_sections hs.sound hs.sections h, step_dialogue hs.sound hs.dialogue h,
    (step_device_names h).trans hs.names⟩

section Stops
variable {cfg : KernelConfig} {s : System} (hs : Kept cfg s) (hstill : Still cfg s)
include hs hstill

omit hs in
theorem still_memory : s.toMemory = [] ∧ s.threadMemory = .receive ∧ s.fromMemory = [] :=
  ⟨memoria_waits (hstill (.memoria []) rfl), manage_memory_waits (hstill .manageMemory rfl)⟩

/-- A page fault that waits for the mutex waits for one that memory is at. -/
theorem still_page_faults : processesAt s .pageFault = [] := by
  obtain ⟨hto, hmemory, hfrom⟩ := still_memory hstill
  have hwaits : ∀ p ∈ s.pageFaultThreads, waitingFault p = [] ∨ s.mResolvePageFault = true := by
    intro p hp
    obtain ⟨i, hi⟩ := List.mem_iff_getElem?.mp hp
    have hrefused := hstill (.resolvePageFault i) rfl
    exact resolve_page_fault_waits (by simpa [step, hi] using hrefused)
  have hopen : s.mResolvePageFault = false := by
    by_contra hlocked
    have hservice := hs.sections.service
    simp only [inService, hto, hfrom, hmemory] at hservice
    rw [if_pos (by simpa using hlocked)] at hservice
    simp only [List.flatMap_nil, List.length_nil, faultClosing, Nat.cast_zero, add_zero] at hservice
    obtain ⟨p, hp, hne⟩ := exists_of_total_ne_zero
      (by omega : total faultSent s.pageFaultThreads ≠ 0)
    obtain ⟨i, hi⟩ := List.mem_iff_getElem?.mp hp
    have hrefused := hstill (.resolvePageFault i) rfl
    cases p with
    | send pcb segment page => simp [step, hi, resolvePageFault] at hrefused
    | _ => simp at hne
  have hthreads : s.pageFaultThreads.flatMap waitingFault = [] :=
    List.flatMap_eq_nil_iff.mpr fun p hp => (hwaits p hp).resolve_right (by simp [hopen])
  simp [processesAt, hthreads, hto, hfrom, hmemory]

theorem still_clock (hinside : clockInside s.switcherClock = true) : Jammed s := by
  obtain ⟨hclock, hfinish⟩ := count_quantum_waits hs.sections.clock
    (hstill (.countQuantum false) rfl) hinside
  obtain ⟨hthread, hq⟩ := manage_interrupt_waits (hstill .manageInterrupt rfl)
  exact ⟨hclock, hfinish, hq, hthread⟩

theorem still_dispatch (hjam : ¬Jammed s) :
    (s.threadDispatch = .receive ∧ s.fromCpu = []) ∨ Unconfigured cfg s := by
  have hattached := hs.sections.attached
  rcases manage_dispatch_waits (hstill .manageDispatch rfl) with hreceive | ⟨hlocked, hout⟩ |
    ⟨hultimo, hbusy⟩ | ⟨pcb, device, parameter, hthread, hnone⟩ | ⟨i, hi, hnone⟩
  · exact Or.inl hreceive
  · rcases hs.sections.out hlocked with hclock | hdispatch
    · exact absurd (still_clock hs hstill hclock) hjam
    · simp [hout] at hdispatch
  · rcases hs.sections.ultimo hultimo with hsent | hwrites
    · exact absurd (hs.sections.unsent hsent).2.2.2 hbusy
    · rcases schedule_next_to_running_waits (hstill .scheduleNextToRunning rfl) with
        ⟨hthread, -⟩ | ⟨hthread, -⟩ | ⟨hthread, -⟩ <;> simp [hthread, writesUltimo] at hwrites
  · right
    refine ⟨pcb, device, parameter, hthread, ?_⟩
    rw [← hs.names]
    apply dictionary_get_none
    cases hget : dictionaryGet s.devices device with
    | none => rfl
    | some i =>
      have hlt := dictionary_get_lt hget
      have := hnone i hget
      simp only [List.getElem?_eq_none_iff] at this
      omega
  · have hlt := hattached i hi
    simp only [List.getElem?_eq_none_iff] at hnone
    omega

/-- With no process on the way to the CPU, on it or on the way back, the scheduler waits for one. -/
theorem still_scheduler (hcpu : outstanding s = 0) :
    s.shortTermScheduler = .waitReady ∧ s.semProcessInReady = 0 := by
  have htokens := hs.sound.balanced.cpu
  rcases schedule_next_to_running_waits (hstill .scheduleNextToRunning rfl) with hwaits |
    ⟨hthread, hfree⟩ | ⟨hthread, hempty⟩
  · exact hwaits
  · simp [cpuTokens, hcpu, hthread, hfree] at htokens
  · exact absurd hempty (ready_not_empty hs.sound.balanced (by simp [hthread]))

theorem still_device {d : Device} (hd : d ∈ s.devices) (hdispatch : s.threadDispatch = .receive) :
    inDevice d = [] ∧ deviceOwes d.thread = 0 := by
  obtain ⟨i, hi⟩ := List.mem_iff_getElem?.mp hd
  have hidle : DeviceQueues.owed d = 0 := by
    by_contra hbusy
    obtain ⟨t, d', hstep, -⟩ := device_moves hs.sound hi (Nat.pos_of_ne_zero hbusy)
    simp [hstill (.simulateIo i) rfl] at hstep
  have hcompleted : completed .receive i d = [] :=
    idle_completed (hdispatch ▸ hs.sound.devices i d hi) hidle ⟨rfl, rfl⟩
  have hthread : d.thread = .wait := by
    cases h : d.thread with
    | wait => rfl
    | _ => simp [DeviceQueues.owed, h, ahead] at hidle
  have hlist : d.listProcesses = [] := by simpa [completed, removed, missing, hthread] using hcompleted
  simp [inDevice, hlist, hthread]

theorem still_console {i : ℕ} {c : Console} (hc : s.consoles[i]? = some c) :
    (c.thread = .receive ∧ c.toKernel = []) ∨
    (c.thread = .waitScheduleReady ∧ s.semScheduleReady = 0) ∨
    (c.thread = .waitGrado ∧ s.semGradoMultiprogamacion = 0) := by
  have hmem := List.mem_of_getElem? hc
  have hrefused : receiveConsole cfg s i c = none := by
    simpa [step, hc] using hstill (.receiveConsole i) rfl
  rcases receive_console_waits hrefused with hwaits | hwaits | hwaits | ⟨hthread, hinit⟩ |
    ⟨hremove, hnew⟩
  · exact Or.inl hwaits
  · exact Or.inr (Or.inl hwaits)
  · exact Or.inr (Or.inr hwaits)
  · obtain ⟨hto, hmemory, hfrom⟩ := still_memory hstill
    have htokens := hs.sound.balanced.init
    have hle := le_total (f := fun c : Console => waitsInit c.thread)
      (fun c => by cases h : c.thread <;> simp) hmem
    simp only [initTokens, copies, hto, hfrom, hmemory, hinit, hthread] at htokens hle
    simp [initDone, replacement] at htokens hle
    omega
  · exact absurd hnew (new_not_empty hs.sound.balanced hmem hremove)

/-- With no token in `sem_process_in_ready` and none owed, the queues are empty or forgotten. -/
theorem still_ready
    (hscheduler : s.shortTermScheduler = .waitReady ∧ s.semProcessInReady = 0)
    (howed : KernelLedger.owed s = 0) : Forgotten cfg s ∨ processesAt s .ready = [] := by
  have hadmitting : s.consoles.flatMap (fun c => admitting c.thread) = [] := by
    apply List.flatMap_eq_nil_iff.mpr
    intro c hc
    obtain ⟨i, hi⟩ := List.mem_iff_getElem?.mp hc
    rcases still_console hs hstill hi with ⟨h, -⟩ | ⟨h, -⟩ | ⟨h, -⟩ <;> simp [h]
  obtain ⟨hthread, hready⟩ := hscheduler
  by_cases hempty : readyQueues cfg s = []
  · right
    have hqueues := hs.sections.queues
    cases halg : cfg.algoritmoPlanificacion
    all_goals
      simp only [readyQueues, Queues, halg, List.append_eq_nil_iff] at hempty hqueues
      simp [processesAt, hempty, hqueues, hadmitting]
  · left
    refine ⟨?_, hempty, hready, hthread⟩
    by_contra halg
    have htokens := hs.sections.tokens halg
    simp only [stranded, hready, hthread, howed, taken] at htokens
    exact hempty (List.length_eq_zero_iff.mp (by omega))

/-- No thread owes a post of `sem_process_in_ready`. -/
theorem still_owed (hdispatch : s.threadDispatch = .receive) : KernelLedger.owed s = 0 := by
  obtain ⟨-, hmemory, -⟩ := still_memory hstill
  have hconsoles : total (fun c => consoleOwes c.thread) s.consoles = 0 := by
    apply total_zero
    intro c hc
    obtain ⟨i, hi⟩ := List.mem_iff_getElem?.mp hc
    rcases still_console hs hstill hi with ⟨h, -⟩ | ⟨h, -⟩ | ⟨h, -⟩ <;> simp [h]
  have howes : total (fun d : Device => deviceOwes d.thread) s.devices = 0 :=
    total_zero fun d hd => (still_device hs hstill hd hdispatch).2
  simp [KernelLedger.owed, hconsoles, howes, hdispatch, hmemory]

theorem still_resting (hjam : ¬Jammed s) (hdevice : ¬Unconfigured cfg s) (hcrash : ¬Crashed cfg s)
    (hforgotten : ¬Forgotten cfg s) : Resting s := by
  obtain ⟨hdispatch, hfrom⟩ := (still_dispatch hs hstill hjam).resolve_right hdevice
  obtain ⟨hthread, hto⟩ := (process_dispatch_waits
    fun answers => hstill (.processDispatch answers) rfl).resolve_right hcrash
  have hscheduler := still_scheduler hs hstill (by simp [outstanding, hto, hthread, hfrom, hdispatch])
  have howed := still_owed hs hstill hdispatch
  refine ⟨(still_ready hs hstill hscheduler howed).resolve_left hforgotten, ?_, ?_,
    still_page_faults hs hstill, hscheduler, hdispatch, howed⟩
  · simp [processesAt, hscheduler.1, hto, hthread, hfrom, hdispatch]
  · exact List.flatMap_eq_nil_iff.mpr fun d hd => (still_device hs hstill hd hdispatch).1

omit hs hstill in
theorem still_of_idle (hclock : ∀ expired, countQuantumOfRoundRobin cfg s expired = none)
    (h : Idle s) : Still cfg s := by
  obtain ⟨⟨hto, hfrom, hmemory⟩, hfaults, ⟨hinterrupts, hquantum, hinterrupt⟩, ⟨hsent, hcpu⟩,
    ⟨hreplies, hdispatch⟩, ⟨hready, hscheduler⟩, hdevices, hconsoles⟩ := h
  intro e he
  cases e with
  | connect instructions segments => simp [arrives] at he
  | console i value =>
    cases hc : s.consoles[i]? with
    | none => simp [step, hc]
    | some c =>
      rcases (hconsoles c (List.mem_of_getElem? hc)).1 with h | h <;> simp [step, hc, consola, h]
  | receiveConsole i =>
    cases hc : s.consoles[i]? with
    | none => simp [step, hc]
    | some c =>
      rcases (hconsoles c (List.mem_of_getElem? hc)).2 with ⟨h, h'⟩ | ⟨h, h'⟩ | ⟨h, h'⟩ <;>
        simp [step, hc, receiveConsole, scheduleNextToReady, h, h']
  | resolvePageFault i =>
    cases hp : s.pageFaultThreads[i]? with
    | none => simp [step, hp]
    | some p =>
      obtain rfl := hfaults p (List.mem_of_getElem? hp)
      simp [step, hp, resolvePageFault]
  | simulateIo i =>
    cases hd : s.devices[i]? with
    | none => simp [step, hd]
    | some d =>
      obtain ⟨hsem, hthread⟩ := hdevices d (List.mem_of_getElem? hd)
      simp [step, hd, simulateIoDefault, hsem, hthread]
  | scheduleNextToRunning => simp [step, scheduleNextToRunning, hscheduler, hready]
  | manageDispatch => simp [step, manageDispatch, hdispatch, hreplies]
  | manageInterrupt => simp [step, manageInterrupt, hinterrupt, hquantum]
  | countQuantum expired => exact hclock expired
  | manageMemory => simp [step, manageMemory, hmemory, hfrom]
  | processDispatch answers => simp [step, processDispatch, hcpu, hsent]
  | processInterrupt => simp [step, processInterrupt, hinterrupts]
  | memoria segments => simp [step, memoria, hto]

end Stops

/-- The thread of the second console admits the process of the first, which asks for its screen
while the first console's own thread waits to admit the second process. -/
def crossedRun : List Event :=
  Event.connect ["I/O PANTALLA AX", "EXIT"] ["16"]::Event.connect ["EXIT"] ["16"]::
    List.replicate 2 (Event.receiveConsole 0)++List.replicate 7 (Event.receiveConsole 1)++
    Event.memoria [⟨0, 0, 16⟩]::List.replicate 3 Event.manageMemory++
    List.replicate 5 (Event.receiveConsole 1)++[Event.receiveConsole 0]++dispatching .fifo++stopping++
    List.replicate 6 Event.manageDispatch++[Event.console 0 0]

def crossed : System := reached (step oneProcess) (boot oneProcess midnight) crossedRun

end Geck.Standstill
