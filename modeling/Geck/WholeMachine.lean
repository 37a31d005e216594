import Geck.PcbTrail
import Geck.PageTables

/-!
# The kernel and the CPU over the memory module

The threads take the steps they take alone, but memory's answers are those of
its own handlers: a request of the kernel is answered when it is the next one,
and the frame of the next instruction is asked for when it is executed. Loads
and stores are served at any time, and no relation of their values is used.
-/

set_option autoImplicit false

namespace Geck.WholeMachine
open Geck.BlockStore Geck.SharedPcb Geck.MemoryState Geck.MemoryPaging Geck.MemoryHandlers
open Geck.MemoryAccounting Geck.MemorySystem Geck.PageTables Geck.CpuTranslation Geck.CpuExecution
open Geck.CpuEffects Geck.KernelState Geck.KernelThreads Geck.KernelFrames Geck.KernelLedger
open Geck.KernelInvariant Geck.KernelSoundness Geck.PcbTrail

/-- The page faults of the instruction a process is at: the last page asked for,
the frame it was loaded into and how many there were. -/
structure Fault where
  programCounter : ℤ
  segment : ℤ
  page : ℤ
  frame : Option ℤ
  count : ℕ
  deriving DecidableEq, Repr

/-- `live` has the segment tables memory answered, `owners` the process each page
table was built for and `faults` the page faults. No code reads them. -/
structure Machine where
  system : System
  memory : Memory
  live : Live
  owners : List ℤ
  faults : ℤ → Option Fault

/-- The segment and the page of the next instruction, if it is a `MOV`. -/
def nextPage (cfg : CpuConfig) (pcb : Pcb) : Option (ℤ × ℤ) := do
  let instruction ← fetchNextInstructionToExecute pcb
  let address ← movAddress (decode cfg instruction)
  let (params, _) ← translateLogicalAddress cfg address pcb
  some (params.segmentNumber, params.pageNum)

/-- What memory would answer to the `FRAME_REQUEST` of the next instruction. -/
def frameAnswer (cfg : CpuConfig) (mcfg : MemoryConfig) (m : Memory) (pcb : Pcb) : CpuResponse :=
  match nextPage cfg pcb with
  | none => .movOutOk
  | some (segment, page) =>
    match attendCpu mcfg m (.frameRequest pcb page segment) with
    | none => .movOutOk
    | some (_, answer) => answer

def runningPcb : CpuThread → Option Pcb
  | .running _ pcb => some pcb
  | _ => none

def executionAnswers (cfg : KernelConfig) (mcfg : MemoryConfig) (w : Machine) (value : CpuResponse)
    (times : Readings) : Answers where
  frame := ((runningPcb w.system.cpuThread).map (frameAnswer cfg.cpu mcfg w.memory)).getD .movOutOk
  value := value
  times := times

def faultCount (fault : Option Fault) : ℕ := (fault.map Fault.count).getD 0

/-- An instruction raised `page_fault`, or it was executed. -/
def faultsExecuted (faults : ℤ → Option Fault) (s t : System) : ℤ → Option Fault :=
  match s.cpuThread with
  | .running _ pcb =>
    if keepsRunning s.cpu then
      Function.update faults pcb.processId (if t.cpu.pageFault then some {
        programCounter := pcb.programCounter
        segment := t.cpu.numeroSegmentoGlobalPageFault
        page := t.cpu.numeroPaginaGlobalPageFault
        frame := none
        count := faultCount (faults pcb.processId)+1 } else none)
    else faults
  | _ => faults

/-- Memory chose a frame for the page, or built the structures of a new process. -/
def faultsServed (mcfg : MemoryConfig) (m : Memory) (faults : ℤ → Option Fault) :
    KernelRequest → ℤ → Option Fault
  | .initProcessStructuresMemory pcb => Function.update faults pcb.processId none
  | .requestPageFault pcb _ _ => Function.update faults pcb.processId
      ((faults pcb.processId).map fun f =>
        { f with frame := (chooseFrame mcfg m pcb.processId).map Prod.snd })
  | .endStructures _ => faults

def requestProcess : KernelRequest → ℤ
  | .initProcessStructuresMemory pcb => pcb.processId
  | .requestPageFault pcb _ _ => pcb.processId
  | .endStructures pcb => pcb.processId

/-- After the next request of the kernel was answered. -/
def served (mcfg : MemoryConfig) (w : Machine) (request : KernelRequest) (rest : List KernelRequest)
    (memory : Memory) (answer : Option KernelResponse) : Machine where
  system := { w.system with
    toMemory := rest
    fromMemory := w.system.fromMemory++answer.toList }
  memory := memory
  live := kernelLive w.live request answer
  owners := w.owners++(memory.allPageTables.drop w.memory.allPageTables.length).map
    fun _ => requestProcess request
  faults := faultsServed mcfg w.memory w.faults request

/-- A step of a thread that neither memory nor an instruction takes part in. -/
def isThread : Event → Bool
  | .memoria _ => false
  | .processDispatch _ => false
  | _ => true

inductive Action where
  | thread (e : Event)
  | attendKernel
  | attendCpu (request : CpuRequest)
  | processDispatch (value : CpuResponse) (times : Readings)

def act (cfg : KernelConfig) (mcfg : MemoryConfig) (w : Machine) : Action → Option Machine
  | .thread e =>
    if isThread e then (step cfg w.system e).map fun t => { w with system := t } else none
  | .attendKernel =>
    match w.system.toMemory with
    | [] => none
    | request::rest =>
      (attendKernel mcfg w.memory request).map fun p => served mcfg w request rest p.1 p.2
  | .attendCpu request => (attendCpu mcfg w.memory request).map fun p => { w with memory := p.1 }
  | .processDispatch value times =>
    (processDispatch cfg w.system (executionAnswers cfg mcfg w value times)).map fun t =>
      { w with system := t, faults := faultsExecuted w.faults w.system t }

def start (cfg : KernelConfig) (mcfg : MemoryConfig) (time : TimeVal) (ram swap : ℕ → UInt8) :
    Machine where
  system := KernelState.boot cfg time
  memory := initMemory mcfg ram swap
  live := fun _ => none
  owners := []
  faults := fun _ => none

section Trails
variable {cfg : KernelConfig} {S T S' : Pcb → Prop} {A B A' : Pcb → ℤ → ℤ → Prop} {s t : System}

theorem boot_trail (time : TimeVal) : Trail S A (KernelState.boot cfg time) where
  consoles := by simp [KernelState.boot]
  ready := by simp [KernelState.boot]
  scheduler := by simp [KernelState.boot]
  toCpu := by simp [KernelState.boot]
  cpu := trivial
  fromCpu := by simp [KernelState.boot]
  dispatch := trivial
  devices := by
    intro d hd pcb hpcb
    obtain ⟨hlist, -, hthread⟩ := init_device_idle hd
    simp [KernelLedger.inDevice, hlist, hthread] at hpcb
  pageFaults := by simp [KernelState.boot]
  toMemory := by simp [KernelState.boot]
  fromMemory := by simp [KernelState.boot]
  memory := trivial
  new := by simp [KernelState.boot]

section Combined
variable (hS : ∀ pcb, S pcb → T pcb → S' pcb)
  (hA : ∀ pcb segment page, A pcb segment page → B pcb segment page → A' pcb segment page)
include hS hA

theorem packed_both {package : CpuPackage} (h : Packed S A package) (h' : Packed T B package) :
    Packed S' A' package := by
  cases package <;> first | exact hA _ _ _ h h' | exact hS _ h h'

theorem executed_both {cpu : Cpu} {pcb : Pcb} (h : Executed S A cpu pcb)
    (h' : Executed T B cpu pcb) : Executed S' A' cpu pcb := by
  unfold Executed at h h' ⊢
  split at h
  · rw [if_pos ‹_›] at h' ⊢
    exact hA _ _ _ h h'
  · rw [if_neg ‹_›] at h' ⊢
    exact hS _ h h'

theorem on_cpu_both {cpu : Cpu} {thread : CpuThread} (h : OnCpu S A cpu thread)
    (h' : OnCpu T B cpu thread) : OnCpu S' A' cpu thread := by
  cases thread with
  | receive => trivial
  | running dispatch pcb => exact executed_both hS hA h h'
  | leaving dispatch pcb => exact executed_both hS hA h h'
  | sending reply => exact packed_both hS hA h h'

theorem handed_both {thread : ThreadDispatch} (h : Handed S A thread) (h' : Handed T B thread) :
    Handed S' A' thread := by
  cases thread with
  | postFree package | postGrado package | lockOut package | setFlag package | unlockOut package
  | removeRunning package => exact packed_both hS hA h h'
  | sendConsole package | addExit package | sendMemory package => exact hS _ h h'
  | sendEnd package =>
    cases package
    case segFault pcb => exact hS _ h h'
    all_goals trivial
  | addBlocked pcb _ _ | addTime pcb _ _ | addProcess pcb _ | addReady pcb => exact hS _ h h'
  | createThread pcb segment page => exact hA _ _ _ h h'
  | receive | postDevice _ | postReady => trivial

/-- Two properties of the copies of a PCB, and what they give together. -/
theorem trail_both (hs : Trail S A s) (ht : Trail T B s) : Trail S' A' s where
  consoles := fun c hc pcb hpcb => hS _ (hs.consoles c hc pcb hpcb) (ht.consoles c hc pcb hpcb)
  ready := fun pcb hpcb => hS _ (hs.ready pcb hpcb) (ht.ready pcb hpcb)
  scheduler := fun pcb hpcb => hS _ (hs.scheduler pcb hpcb) (ht.scheduler pcb hpcb)
  toCpu := fun sent hsent => hS _ (hs.toCpu sent hsent) (ht.toCpu sent hsent)
  cpu := on_cpu_both hS hA hs.cpu ht.cpu
  fromCpu := fun reply hr => packed_both hS hA (hs.fromCpu reply hr) (ht.fromCpu reply hr)
  dispatch := handed_both hS hA hs.dispatch ht.dispatch
  devices := fun d hd pcb hpcb => hS _ (hs.devices d hd pcb hpcb) (ht.devices d hd pcb hpcb)
  pageFaults := by
    intro p hmem
    have h := hs.pageFaults p hmem
    have h' := ht.pageFaults p hmem
    cases p with
    | lock pcb segment page => exact hA _ _ _ h h'
    | send pcb segment page => exact hA _ _ _ h h'
    | finished => trivial
  toMemory := by
    intro request hmem
    have h := hs.toMemory request hmem
    have h' := ht.toMemory request hmem
    cases request with
    | initProcessStructuresMemory pcb => trivial
    | requestPageFault pcb segment page => exact hA _ _ _ h h'
    | endStructures pcb => exact hS _ h h'
  fromMemory := by
    intro response hmem
    have h := hs.fromMemory response hmem
    have h' := ht.fromMemory response hmem
    cases response <;> exact hS _ h h'
  memory := by
    have h := hs.memory
    have h' := ht.memory
    cases hthread : s.threadMemory <;> rw [hthread] at h h' <;> first | trivial | exact hS _ h h'
  new := fun hadmittable pcb hpcb => hS _ (hs.new hadmittable pcb hpcb)
    (ht.new hadmittable pcb hpcb)

end Combined

theorem trail_mono (hS : ∀ pcb, S pcb → S' pcb)
    (hA : ∀ pcb segment page, A pcb segment page → A' pcb segment page) (hs : Trail S A s) :
    Trail S' A' s :=
  trail_both (fun pcb h _ => hS pcb h) (fun pcb segment page h _ => hA pcb segment page h) hs hs

/-- A request answered: the copy memory had goes back to the kernel. -/
theorem trail_answered {rest : List KernelRequest} {answers : List KernelResponse}
    (hs : Trail S A { s with toMemory := rest }) (hanswers : ∀ r ∈ answers, Answering S r) :
    Trail S A { s with toMemory := rest, fromMemory := s.fromMemory++answers } := by
  refine ⟨hs.consoles, hs.ready, hs.scheduler, hs.toCpu, hs.cpu, hs.fromCpu, hs.dispatch,
    hs.devices, hs.pageFaults, hs.toMemory, fun r hr => ?_, hs.memory, hs.new⟩
  rcases List.mem_append.mp hr with hold | hnew
  · exact hs.fromMemory r hold
  · exact hanswers r hnew

theorem trail_popped (hs : Trail S A s) {request : KernelRequest} {rest : List KernelRequest}
    (hq : s.toMemory = request::rest) : Trail S A { s with toMemory := rest } :=
  ⟨hs.consoles, hs.ready, hs.scheduler, hs.toCpu, hs.cpu, hs.fromCpu, hs.dispatch, hs.devices,
    hs.pageFaults, fun r hr => hs.toMemory r (hq ▸ List.mem_cons_of_mem request hr), hs.fromMemory,
    hs.memory, hs.new⟩

/-- A turn of the loop that executes an instruction. -/
theorem trail_turn (hs : Trail S A { s with cpuThread := .receive }) {cpu : Cpu}
    {dispatch : Dispatch} {pcb : Pcb} (h : Executed S A cpu pcb) :
    Trail S A { s with cpu := cpu, cpuThread := .running dispatch pcb } :=
  ⟨hs.consoles, hs.ready, hs.scheduler, hs.toCpu, h, hs.fromCpu, hs.dispatch, hs.devices,
    hs.pageFaults, hs.toMemory, hs.fromMemory, hs.memory, hs.new⟩

theorem trail_idle (hs : Trail S A s) : Trail S A { s with cpuThread := .receive } :=
  ⟨hs.consoles, hs.ready, hs.scheduler, hs.toCpu, trivial, hs.fromCpu, hs.dispatch, hs.devices,
    hs.pageFaults, hs.toMemory, hs.fromMemory, hs.memory, hs.new⟩

/-- What a turn of the CPU that executes an instruction is. -/
theorem turn_cases {answers : Answers} (hexecutes : executes s = true)
    (h : processDispatch cfg s answers = some t) :
    ∃ dispatch pcb cpu access, s.cpuThread = .running dispatch pcb ∧
      keepsRunning s.cpu = true ∧
      instructionCycle cfg.cpu answers s.cpu pcb =
        some (cpu, if cpu.pageFault then pcb else updateProgramCounter pcb, access) ∧
      t = { s with
        cpu := cpu
        cpuThread := .running dispatch (if cpu.pageFault then pcb else updateProgramCounter pcb) } := by
  cases hthread : s.cpuThread with
  | running dispatch pcb =>
    have hkeep : keepsRunning s.cpu = true := by simpa [executes, hthread] using hexecutes
    simp only [processDispatch, hthread, hkeep, if_true, Option.bind_eq_bind,
      Option.bind_eq_some_iff] at h
    obtain ⟨⟨cpu, next, access⟩, hcycle, h⟩ := h
    obtain rfl := Option.some.inj h
    have hnext : next = if cpu.pageFault then pcb else updateProgramCounter pcb := by
      simp only [instructionCycle, Option.bind_eq_bind, Option.bind_eq_some_iff] at hcycle
      obtain ⟨instruction, -, ⟨cpu', access'⟩, -, hcycle⟩ := hcycle
      simp only [Option.some.injEq, Prod.mk.injEq] at hcycle
      obtain ⟨rfl, rfl, -⟩ := hcycle
      rfl
    subst hnext
    exact ⟨dispatch, pcb, cpu, access, rfl, hkeep, hcycle, rfl⟩
  | receive | leaving dispatch pcb | sending reply => simp [executes, hthread] at hexecutes

end Trails

section Actions
variable {cfg : KernelConfig} {mcfg : MemoryConfig} {w w' : Machine} {a : Action}

theorem act_cases (h : act cfg mcfg w a = some w') :
    (∃ e t, a = .thread e ∧ isThread e = true ∧ step cfg w.system e = some t ∧
      w' = { w with system := t }) ∨
    (∃ request rest memory answer, a = .attendKernel ∧ w.system.toMemory = request::rest ∧
      attendKernel mcfg w.memory request = some (memory, answer) ∧
      w' = served mcfg w request rest memory answer) ∨
    (∃ request memory answer, a = .attendCpu request ∧
      attendCpu mcfg w.memory request = some (memory, answer) ∧ w' = { w with memory := memory }) ∨
    ∃ value times t, a = .processDispatch value times ∧
      processDispatch cfg w.system (executionAnswers cfg mcfg w value times) = some t ∧
      w' = { w with system := t, faults := faultsExecuted w.faults w.system t } := by
  cases a with
  | thread e =>
    simp only [act, Option.ite_none_right_eq_some, Option.map_eq_some_iff] at h
    obtain ⟨hthread, t, ht, rfl⟩ := h
    exact Or.inl ⟨e, t, rfl, hthread, ht, rfl⟩
  | attendKernel =>
    cases hq : w.system.toMemory with
    | nil => simp [act, hq] at h
    | cons request rest =>
      simp only [act, hq, Option.map_eq_some_iff] at h
      obtain ⟨⟨memory, answer⟩, hserved, rfl⟩ := h
      exact Or.inr (Or.inl ⟨request, rest, memory, answer, rfl, rfl, hserved, rfl⟩)
  | attendCpu request =>
    simp only [act, Option.map_eq_some_iff] at h
    obtain ⟨⟨memory, answer⟩, hserved, rfl⟩ := h
    exact Or.inr (Or.inr (Or.inl ⟨request, memory, answer, rfl, hserved, rfl⟩))
  | processDispatch value times =>
    simp only [act, Option.map_eq_some_iff] at h
    obtain ⟨t, ht, rfl⟩ := h
    exact Or.inr (Or.inr (Or.inr ⟨value, times, t, rfl, ht, rfl⟩))

theorem thread_plain {e : Event} (h : isThread e = true) (s : System) : plain s e = true := by
  cases e <;> simp [isThread, plain] at h ⊢

/-- Memory answers as the kernel's own loop of memory does. -/
theorem served_step (cfg : KernelConfig) {request : KernelRequest} {rest : List KernelRequest} {memory : Memory}
    {answer : Option KernelResponse} (hq : w.system.toMemory = request::rest)
    (h : attendKernel mcfg w.memory request = some (memory, answer))
    (hfound : ∀ pcb segment page, request = .requestPageFault pcb segment page →
      answer = some (.responsePageFault pcb)) :
    ∃ segments, step cfg w.system (.memoria segments) =
      some (served mcfg w request rest memory answer).system := by
  cases request with
  | initProcessStructuresMemory pcb =>
    obtain ⟨built, hbuilt, rfl⟩ := attend_init_some h
    obtain ⟨segments, -, rfl⟩ := init_process_some hbuilt
    exact ⟨segments, by simp [step, memoria, hq, memoryAnswer, served]⟩
  | requestPageFault pcb segment page =>
    obtain rfl := hfound pcb segment page rfl
    exact ⟨[], by simp [step, memoria, hq, memoryAnswer, served]⟩
  | endStructures pcb =>
    obtain ⟨-, rfl⟩ := attend_end_some h
    exact ⟨[], by simp [step, memoria, hq, memoryAnswer, served]⟩

end Actions

section Copies
variable {cfg : KernelConfig} {s t : System} {pcb : Pcb}

theorem pending_set {i : ℕ} {c : Console} (hp : pcb ∈ pendingCopies t)
    (hcopies : copies t = copies s) (hconsoles : t.consoles = s.consoles.set i c) :
    pcb ∈ pendingCopies s ∨ pcb ∈ initCopy c.thread := by
  have hthreads : threads t = (threads s).set i c.thread := by
    rw [threads, hconsoles, List.map_set, threads]
  rw [pendingCopies, hcopies, hthreads] at hp
  rcases List.mem_append.mp hp with hmem | hmem
  · exact Or.inl (List.mem_append_left _ hmem)
  · rcases flat_map_set_subset initCopy hmem with hmem | hmem
    · exact Or.inr hmem
    · exact Or.inl (List.mem_append_right _ hmem)

/-- A console only makes a copy of a process that is in NEW. -/
theorem receive_console_pending {i : ℕ} {c : Console} (hc : s.consoles[i]? = some c)
    (h : receiveConsole cfg s i c = some t) (hp : pcb ∈ pendingCopies t) :
    pcb ∈ pendingCopies s ∨ pcb ∈ s.listNew := by
  cases hthread : c.thread with
  | sendInit p =>
    have hold := init_copy_pending hc hthread
    simp only [receiveConsole, scheduleNextToReady, hthread, Option.some.injEq] at h
    subst h
    left
    rcases List.mem_append.mp hp with hp | hp
    · simp only [copies, System.setConsole, List.flatMap_append, List.flatMap_cons, initRequest,
        List.flatMap_nil, List.mem_append, List.mem_singleton, List.append_nil] at hp
      rcases hp with ((hp | rfl) | hp) | hp
      · exact List.mem_append_left _ (by simp [copies, hp])
      · exact List.mem_append_right _ hold
      · exact List.mem_append_left _ (by simp [copies, hp])
      · exact List.mem_append_left _ (by simp [copies, hp])
    · rw [threads_set] at hp
      rcases flat_map_set_subset initCopy hp with hp | hp
      · simp [initCopy] at hp
      · exact List.mem_append_right _ hp
  | getNew =>
    cases hn : s.listNew with
    | nil => simp [receiveConsole, scheduleNextToReady, hthread, hn] at h
    | cons head rest =>
      simp only [receiveConsole, scheduleNextToReady, hthread, hn, Option.some.injEq] at h
      subst h
      refine (pending_set (s := s) hp rfl rfl).imp_right fun hmem => ?_
      obtain rfl : pcb = head := by simpa [initCopy] using hmem
      simp
  | addReady p | returned p =>
    simp only [receiveConsole, scheduleNextToReady, hthread, Option.some.injEq] at h
    obtain ⟨_, _, hadd⟩ := add_to_ready_frame cfg s p
    rw [hadd] at h
    subst h
    exact Or.inl ((pending_set (s := s) hp rfl rfl).resolve_right (by simp [initCopy]))
  | _ =>
    simp only [receiveConsole, scheduleNextToReady, hthread] at h
    repeat' split at h
    all_goals simp only [Option.some.injEq, reduceCtorEq] at h
    all_goals
      subst h
      exact Or.inl ((pending_set (s := s) hp rfl rfl).resolve_right (by simp [initCopy]))

theorem manage_memory_pending (h : manageMemory cfg s = some t) (hp : pcb ∈ pendingCopies t) :
    pcb ∈ pendingCopies s := by
  cases hthread : s.threadMemory with
  | receive =>
    cases hr : s.fromMemory with
    | nil => simp [manageMemory, hthread, hr] at h
    | cons response rest =>
      cases response
      all_goals
        simp only [manageMemory, hthread, hr, Option.some.injEq] at h
        subst h
        simp only [pendingCopies, copies, hthread, hr, List.flatMap_cons, initResponse,
          replacement, List.mem_append, List.mem_singleton, List.append_nil, List.nil_append] at hp ⊢
        tauto
  | addReady p =>
    simp only [manageMemory, hthread, Option.some.injEq] at h
    obtain ⟨_, _, hadd⟩ := add_to_ready_frame cfg s p
    rw [hadd] at h
    subst h
    cases halg : cfg.algoritmoPlanificacion
    all_goals simpa [pendingCopies, copies, threads, hthread, halg] using hp
  | _ =>
    simp only [manageMemory, hthread, Option.some.injEq] at h
    subst h
    simp only [pendingCopies, copies, threads, hthread, replacement, List.append_nil,
      List.mem_append] at hp ⊢
    tauto

theorem pending_of_requests (hp : pcb ∈ pendingCopies t)
    (hrequests : t.toMemory.flatMap initRequest = s.toMemory.flatMap initRequest)
    (hresponses : t.fromMemory = s.fromMemory) (hthread : t.threadMemory = s.threadMemory)
    (hthreads : threads t = threads s) : pcb ∈ pendingCopies s := by
  rwa [pendingCopies, copies, hrequests, hresponses, hthread, hthreads] at hp

theorem manage_dispatch_threads (hs : Sound cfg s) (h : manageDispatch cfg s = some t) :
    threads t = threads s := by
  rcases manage_dispatch_consoles hs.packages.handles h with hsame | ⟨i, c, message, hc, -, hset⟩
  · rw [threads, hsame, threads]
  · rw [threads, hset]
    exact threads_same hc rfl

/-- A copy of a process in NEW was made from NEW. -/
theorem thread_pending {e : Event} (hs : Sound cfg s) (he : isThread e = true)
    (h : step cfg s e = some t) (hp : pcb ∈ pendingCopies t) :
    pcb ∈ pendingCopies s ∨ pcb ∈ s.listNew := by
  cases e with
  | connect instructions segments =>
    obtain rfl := Option.some.inj h
    left
    simpa [pendingCopies, copies, threads, connect, initCopy] using hp
  | console i value =>
    obtain ⟨c, hc, h⟩ := Option.bind_eq_some_iff.mp h
    obtain ⟨_, _, _, _, _, rfl⟩ := consola_frame h
    exact Or.inl (pending_of_requests hp rfl rfl rfl (threads_same hc rfl))
  | receiveConsole i =>
    obtain ⟨c, hc, h⟩ := Option.bind_eq_some_iff.mp h
    exact receive_console_pending hc h hp
  | manageDispatch =>
    have hthreads := manage_dispatch_threads hs h
    have hmemory : t.toMemory.flatMap initRequest = s.toMemory.flatMap initRequest := by
      rcases manage_dispatch_to_memory h with hsame | ⟨pcb, hend⟩
      · rw [hsame]
      · simp [hend]
    obtain ⟨_, _, _, _, _, _, _, _, _, _, _, _, _, _, _, _, rfl⟩ := manage_dispatch_frame h
    exact Or.inl (pending_of_requests hp hmemory rfl rfl hthreads)
  | manageMemory => exact Or.inl (manage_memory_pending h hp)
  | resolvePageFault i =>
    obtain ⟨p, -, h⟩ := Option.bind_eq_some_iff.mp h
    have hmemory : t.toMemory.flatMap initRequest = s.toMemory.flatMap initRequest := by
      unfold resolvePageFault at h
      repeat' split at h
      all_goals simp only [Option.some.injEq, reduceCtorEq] at h
      all_goals subst h
      all_goals simp [System.setPageFaultThread]
    obtain ⟨_, _, _, rfl⟩ := resolve_page_fault_frame h
    exact Or.inl (pending_of_requests hp hmemory rfl rfl rfl)
  | scheduleNextToRunning =>
    obtain ⟨_, _, _, _, _, _, _, _, _, _, _, rfl⟩ := schedule_next_to_running_frame h
    exact Or.inl hp
  | manageInterrupt =>
    obtain ⟨_, _, _, _, rfl⟩ := manage_interrupt_frame h
    exact Or.inl hp
  | countQuantum expired =>
    obtain ⟨_, _, _, _, _, _, rfl⟩ := count_quantum_frame h
    exact Or.inl hp
  | simulateIo i =>
    obtain ⟨d, -, h⟩ := Option.bind_eq_some_iff.mp h
    obtain ⟨_, _, _, _, rfl⟩ := simulate_io_default_frame h
    exact Or.inl hp
  | processInterrupt =>
    obtain ⟨_, _, -, rfl⟩ := process_interrupt_cases h
    exact Or.inl hp
  | processDispatch answers | memoria segments => simp [isThread] at he

end Copies

end Geck.WholeMachine
