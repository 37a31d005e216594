import Geck.KernelThreads

/-!
# What each thread can change

A step of a thread is an update of the components it uses; an invariant over
other components needs no proof for that thread.
-/

set_option autoImplicit false

namespace Geck.KernelFrames
open Geck.BlockStore Geck.SharedPcb Geck.MemoryHandlers Geck.CpuExecution
open Geck.KernelState Geck.KernelThreads

theorem add_to_ready_frame (cfg : KernelConfig) (s : System) (pcb : Pcb) :
    ∃ ready rr, addToReady cfg s pcb = { s with listReady := ready, listReadyRr := rr } := by
  unfold addToReady
  split <;> exact ⟨_, _, rfl⟩

theorem receive_console_frame {cfg : KernelConfig} {s t : System} {i : ℕ} {c : Console}
    (h : receiveConsole cfg s i c = some t) :
    ∃ thread toKernel created pid new ready rr grado inReady init schedule toMemory, t = { s with
      consoles := s.consoles.set i { c with thread := thread, toKernel := toKernel }
      created := created
      pidCounter := pid
      listNew := new
      listReady := ready
      listReadyRr := rr
      semGradoMultiprogamacion := grado
      semProcessInReady := inReady
      semInitProcessMemory := init
      semScheduleReady := schedule
      toMemory := toMemory } := by
  unfold receiveConsole scheduleNextToReady addToReady at h
  repeat' split at h
  all_goals simp only [Option.some.injEq, reduceCtorEq] at h
  all_goals exact ⟨_, _, _, _, _, _, _, _, _, _, _, _, h.symm⟩

theorem schedule_next_to_running_frame {cfg : KernelConfig} {s t : System}
    (h : scheduleNextToRunning cfg s = some t) :
    ∃ ready rr fifo running inReady free beggin ultimo thread toCpu sent, t = { s with
      listReady := ready
      listReadyRr := rr
      listReadyFifo := fifo
      listRunning := running
      semProcessInReady := inReady
      semCpuFreeToExecute := free
      semBegginQuantum := beggin
      ultimo := ultimo
      shortTermScheduler := thread
      toCpu := toCpu
      sent := sent } := by
  unfold scheduleNextToRunning at h
  repeat' split at h
  all_goals simp only [Option.some.injEq, reduceCtorEq] at h
  all_goals exact ⟨_, _, _, _, _, _, _, _, _, _, _, h.symm⟩

theorem send_to_console_frame (s : System) (clientSocket : ℤ) (message : ConsoleMessage) :
    ∃ consoles, sendToConsole s clientSocket message = { s with consoles := consoles } := by
  unfold sendToConsole
  split <;> exact ⟨_, rfl⟩

@[simp] theorem send_to_console_from_cpu (s : System) (clientSocket : ℤ) (message : ConsoleMessage) :
    (sendToConsole s clientSocket message).fromCpu = s.fromCpu := by
  obtain ⟨_, h⟩ := send_to_console_frame s clientSocket message
  rw [h]

@[simp] theorem send_to_console_devices (s : System) (clientSocket : ℤ) (message : ConsoleMessage) :
    (sendToConsole s clientSocket message).devices = s.devices := by
  obtain ⟨_, h⟩ := send_to_console_frame s clientSocket message
  rw [h]

@[simp] theorem send_to_console_ready_fifo (s : System) (clientSocket : ℤ)
    (message : ConsoleMessage) :
    (sendToConsole s clientSocket message).listReadyFifo = s.listReadyFifo := by
  obtain ⟨_, h⟩ := send_to_console_frame s clientSocket message
  rw [h]

@[simp] theorem send_to_console_to_memory (s : System) (clientSocket : ℤ)
    (message : ConsoleMessage) :
    (sendToConsole s clientSocket message).toMemory = s.toMemory := by
  obtain ⟨_, h⟩ := send_to_console_frame s clientSocket message
  rw [h]

theorem manage_dispatch_frame {cfg : KernelConfig} {s t : System}
    (h : manageDispatch cfg s = some t) :
    ∃ consoles ready fifo blocked running exit grado inReady free mutex flag thread devices faults
      toMemory fromCpu, t = { s with
      consoles := consoles
      listReady := ready
      listReadyFifo := fifo
      listBlocked := blocked
      listRunning := running
      listExit := exit
      semGradoMultiprogamacion := grado
      semProcessInReady := inReady
      semCpuFreeToExecute := free
      mOutOfRunning := mutex
      flagOutOfRunning := flag
      threadDispatch := thread
      devices := devices
      pageFaultThreads := faults
      toMemory := toMemory
      fromCpu := fromCpu } := by
  unfold manageDispatch sendToConsole at h
  repeat' split at h
  all_goals simp only [Option.some.injEq, reduceCtorEq] at h
  all_goals exact ⟨_, _, _, _, _, _, _, _, _, _, _, _, _, _, _, _, h.symm⟩

section DeviceLists
variable {cfg : KernelConfig} {s t : System}

theorem add_time_some {pcb : Pcb} {device : String} {parameter : ℤ}
    (hthread : s.threadDispatch = .addTime pcb device parameter)
    (h : manageDispatch cfg s = some t) :
    ∃ i d, dictionaryGet s.devices device = some i ∧ s.devices[i]? = some d ∧
      t = { s.setDevice i { d with listProcesses := d.listProcesses++[.time parameter] } with
        threadDispatch := .addProcess pcb i } := by
  simp only [manageDispatch, hthread] at h
  split at h
  · simp at h
  next i hi =>
    split at h
    · simp at h
    next d hd => exact ⟨i, d, hi, hd, (Option.some.inj h).symm⟩

theorem add_process_some {pcb : Pcb} {i : ℕ} (hthread : s.threadDispatch = .addProcess pcb i)
    (h : manageDispatch cfg s = some t) :
    ∃ d, s.devices[i]? = some d ∧
      t = { s.setDevice i { d with listProcesses := d.listProcesses++[.process pcb] } with
        threadDispatch := .postDevice i } := by
  simp only [manageDispatch, hthread] at h
  split at h
  · simp at h
  next d hd => exact ⟨d, hd, (Option.some.inj h).symm⟩

theorem post_device_some {i : ℕ} (hthread : s.threadDispatch = .postDevice i)
    (h : manageDispatch cfg s = some t) :
    ∃ d, s.devices[i]? = some d ∧
      t = { s.setDevice i { d with semDevices := d.semDevices+1 } with
        threadDispatch := .receive } := by
  simp only [manageDispatch, hthread] at h
  split at h
  · simp at h
  next d hd => exact ⟨d, hd, (Option.some.inj h).symm⟩

end DeviceLists

theorem manage_interrupt_frame {s t : System} (h : manageInterrupt s = some t) :
    ∃ interruption finish thread interrupts, t = { s with
      semInterruptionQuantum := interruption
      semInterruptionQuantumFinish := finish
      threadInterrupt := thread
      interrupts := interrupts } := by
  unfold manageInterrupt at h
  repeat' split at h
  all_goals simp only [Option.some.injEq, reduceCtorEq] at h
  all_goals exact ⟨_, _, _, _, h.symm⟩

theorem count_quantum_frame {cfg : KernelConfig} {s t : System} {expired : Bool}
    (h : countQuantumOfRoundRobin cfg s expired = some t) :
    ∃ beggin interruption finish mutex flag clock, t = { s with
      semBegginQuantum := beggin
      semInterruptionQuantum := interruption
      semInterruptionQuantumFinish := finish
      mOutOfRunning := mutex
      flagOutOfRunning := flag
      switcherClock := clock } := by
  unfold countQuantumOfRoundRobin at h
  repeat' split at h
  all_goals simp only [Option.some.injEq, reduceCtorEq] at h
  all_goals exact ⟨_, _, _, _, _, _, h.symm⟩

theorem manage_memory_frame {cfg : KernelConfig} {s t : System} (h : manageMemory cfg s = some t) :
    ∃ new ready rr inReady init mutex thread fromMemory, t = { s with
      listNew := new
      listReady := ready
      listReadyRr := rr
      semProcessInReady := inReady
      semInitProcessMemory := init
      mResolvePageFault := mutex
      threadMemory := thread
      fromMemory := fromMemory } := by
  unfold manageMemory addToReady at h
  repeat' split at h
  all_goals simp only [Option.some.injEq, reduceCtorEq] at h
  all_goals exact ⟨_, _, _, _, _, _, _, _, h.symm⟩

theorem resolve_page_fault_frame {s t : System} {i : ℕ} {p : PageFaultThread}
    (h : resolvePageFault s i p = some t) :
    ∃ mutex faults toMemory, t = { s with
      mResolvePageFault := mutex
      pageFaultThreads := faults
      toMemory := toMemory } := by
  unfold resolvePageFault at h
  repeat' split at h
  all_goals simp only [Option.some.injEq, reduceCtorEq] at h
  all_goals exact ⟨_, _, _, h.symm⟩

theorem simulate_io_default_frame {cfg : KernelConfig} {s t : System} {i : ℕ} {d : Device}
    (h : simulateIoDefault cfg s i d = some t) :
    ∃ ready rr inReady devices, t = { s with
      listReady := ready
      listReadyRr := rr
      semProcessInReady := inReady
      devices := devices } := by
  unfold simulateIoDefault addToReady at h
  repeat' split at h
  all_goals simp only [Option.some.injEq, reduceCtorEq] at h
  all_goals exact ⟨_, _, _, _, h.symm⟩

theorem process_dispatch_frame {cfg : KernelConfig} {s t : System} {answers : Answers}
    (h : processDispatch cfg s answers = some t) :
    ∃ toCpu fromCpu cpu cause thread received replies, t = { s with
      toCpu := toCpu
      fromCpu := fromCpu
      cpu := cpu
      cause := cause
      cpuThread := thread
      received := received
      replies := replies } := by
  cases hthread : s.cpuThread with
  | running dispatch pcb =>
    simp only [processDispatch, hthread] at h
    split at h
    · simp only [Option.bind_eq_bind, Option.bind_eq_some_iff, Option.some.injEq] at h
      obtain ⟨_, _, h⟩ := h
      exact ⟨_, _, _, _, _, _, _, h.symm⟩
    · simp only [Option.some.injEq] at h
      exact ⟨_, _, _, _, _, _, _, h.symm⟩
  | _ =>
    simp only [processDispatch, hthread] at h
    repeat' split at h
    all_goals simp only [Option.some.injEq, reduceCtorEq] at h
    all_goals exact ⟨_, _, _, _, _, _, _, h.symm⟩

theorem process_interrupt_cases {s t : System} (h : processInterrupt s = some t) :
    ∃ dispatch rest, s.interrupts = dispatch::rest ∧ t = { s with
      interrupts := rest
      cpu := { s.cpu with checkInterruption := true }
      cause := if s.cpu.checkInterruption then s.cause else some dispatch } := by
  cases hq : s.interrupts with
  | nil => simp [processInterrupt, hq] at h
  | cons dispatch rest =>
    simp only [processInterrupt, hq, Option.some.injEq] at h
    exact ⟨dispatch, rest, rfl, h.symm⟩

theorem memoria_cases {s t : System} {segments : List Segment} (h : memoria s segments = some t) :
    ∃ request rest, s.toMemory = request::rest ∧ t = { s with
      toMemory := rest
      fromMemory := s.fromMemory++memoryAnswer segments request } := by
  cases hq : s.toMemory with
  | nil => simp [memoria, hq] at h
  | cons request rest =>
    simp only [memoria, hq, Option.some.injEq] at h
    exact ⟨request, rest, rfl, h.symm⟩

theorem consola_frame {s t : System} {i : ℕ} {c : Console} {value : UInt32}
    (h : consola s i c value = some t) :
    ∃ toKernel ended rest message, c.toConsole = message::rest ∧ t = { s with
      consoles := s.consoles.set i { c with
        toConsole := rest
        toKernel := toKernel
        ended := ended } } := by
  unfold consola at h
  repeat' split at h
  all_goals simp only [Option.some.injEq, reduceCtorEq] at h
  all_goals exact ⟨_, _, _, _, by assumption, h.symm⟩

/-- What the CPU and the quantum have is the same, but for replies taken. -/
structure Undisturbed (s t : System) : Prop where
  cpu : t.cpu = s.cpu
  cause : t.cause = s.cause
  cpuThread : t.cpuThread = s.cpuThread
  toCpu : t.toCpu = s.toCpu
  fromCpu : t.fromCpu ⊆ s.fromCpu
  sent : t.sent = s.sent
  replies : t.replies = s.replies
  scheduler : t.shortTermScheduler = s.shortTermScheduler
  clock : t.switcherClock = s.switcherClock
  thread : t.threadInterrupt = s.threadInterrupt
  beggin : t.semBegginQuantum = s.semBegginQuantum
  interruption : t.semInterruptionQuantum = s.semInterruptionQuantum
  finish : t.semInterruptionQuantumFinish = s.semInterruptionQuantumFinish
  interrupts : t.interrupts = s.interrupts

/-- The threads that serve neither the CPU nor the quantum. -/
def distant : Event → Bool
  | .scheduleNextToRunning => false
  | .manageInterrupt => false
  | .countQuantum _ => false
  | .processDispatch _ => false
  | .processInterrupt => false
  | _ => true

theorem manage_dispatch_replies {cfg : KernelConfig} {s t : System}
    (h : manageDispatch cfg s = some t) : t.fromCpu ⊆ s.fromCpu := by
  unfold manageDispatch at h
  repeat' split at h
  all_goals simp only [Option.some.injEq, reduceCtorEq] at h
  all_goals subst h
  all_goals simp_all [System.setDevice]

theorem distant_undisturbed {cfg : KernelConfig} {s t : System} {e : Event}
    (he : distant e = true) (h : step cfg s e = some t) : Undisturbed s t := by
  have hsame := List.Subset.refl s.fromCpu
  cases e with
  | connect instructions segments =>
    obtain rfl := Option.some.inj h
    exact ⟨rfl, rfl, rfl, rfl, hsame, rfl, rfl, rfl, rfl, rfl, rfl, rfl, rfl, rfl⟩
  | console i value =>
    obtain ⟨c, -, h⟩ := Option.bind_eq_some_iff.mp h
    obtain ⟨_, _, _, _, -, rfl⟩ := consola_frame h
    exact ⟨rfl, rfl, rfl, rfl, hsame, rfl, rfl, rfl, rfl, rfl, rfl, rfl, rfl, rfl⟩
  | receiveConsole i =>
    obtain ⟨c, -, h⟩ := Option.bind_eq_some_iff.mp h
    obtain ⟨_, _, _, _, _, _, _, _, _, _, _, _, rfl⟩ := receive_console_frame h
    exact ⟨rfl, rfl, rfl, rfl, hsame, rfl, rfl, rfl, rfl, rfl, rfl, rfl, rfl, rfl⟩
  | manageDispatch =>
    have hreplies := manage_dispatch_replies h
    obtain ⟨_, _, _, _, _, _, _, _, _, _, _, _, _, _, _, _, rfl⟩ := manage_dispatch_frame h
    exact ⟨rfl, rfl, rfl, rfl, hreplies, rfl, rfl, rfl, rfl, rfl, rfl, rfl, rfl, rfl⟩
  | manageMemory =>
    obtain ⟨_, _, _, _, _, _, _, _, rfl⟩ := manage_memory_frame h
    exact ⟨rfl, rfl, rfl, rfl, hsame, rfl, rfl, rfl, rfl, rfl, rfl, rfl, rfl, rfl⟩
  | resolvePageFault i =>
    obtain ⟨p, -, h⟩ := Option.bind_eq_some_iff.mp h
    obtain ⟨_, _, _, rfl⟩ := resolve_page_fault_frame h
    exact ⟨rfl, rfl, rfl, rfl, hsame, rfl, rfl, rfl, rfl, rfl, rfl, rfl, rfl, rfl⟩
  | simulateIo i =>
    obtain ⟨d, -, h⟩ := Option.bind_eq_some_iff.mp h
    obtain ⟨_, _, _, _, rfl⟩ := simulate_io_default_frame h
    exact ⟨rfl, rfl, rfl, rfl, hsame, rfl, rfl, rfl, rfl, rfl, rfl, rfl, rfl, rfl⟩
  | memoria segments =>
    obtain ⟨_, _, -, rfl⟩ := memoria_cases h
    exact ⟨rfl, rfl, rfl, rfl, hsame, rfl, rfl, rfl, rfl, rfl, rfl, rfl, rfl, rfl⟩
  | _ => simp [distant] at he

end Geck.KernelFrames
