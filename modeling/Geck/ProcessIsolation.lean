import Geck.ContextSteps
import Geck.SeparateMachines

/-!
# Each process has a private computer

The kernel, the CPU with its TLB and memory with its swap run many processes.
Whatever they do, each process computes as a private computer does on what
happens to it alone: its creation, the first bytes of its pages, its
instructions and the values typed for it.
-/

set_option autoImplicit false

namespace Geck.ProcessIsolation
open Geck.LabelledRuns Geck.SeparateMachines Geck.BlockStore Geck.SharedPcb Geck.MemoryState
open Geck.MemoryFaults Geck.MemoryHandlers Geck.MemoryContents Geck.MemoryAccounting
open Geck.MemoryAllocation Geck.MemorySystem
open Geck.CpuTranslation Geck.CpuExecution Geck.CpuEffects Geck.CpuFlags Geck.KernelState
open Geck.KernelThreads Geck.KernelFrames Geck.KernelLedger Geck.KernelInvariant
open Geck.KernelSoundness Geck.ProcessCensus
open Geck.ProcessMoves Geck.PcbTrail Geck.WholeMachine Geck.AccessFaults Geck.MemoryPromises
open Geck.FlatMemory Geck.PrivateComputer Geck.CpuConnection Geck.MachineMemory
open Geck.ProcessContexts Geck.ContextSteps

abbrev World := ℤ → Option Computer

/-- What a move of the machine is to the processes. An instruction that faults is
not executed: it is the same instruction that the CPU takes up again. -/
def tasks (cfg : KernelConfig) (mcfg : MemoryConfig) (c : Connected) : Move → List (ℤ × Task)
  | .thread e =>
    ((createdPcb c.machine.system e).map fun pcb => (pcb.processId, Task.create pcb)).toList++
      ((typedValue c.machine.system e).map fun input =>
        (input.1, Task.type input.2.1 input.2.2)).toList
  | .attendKernel =>
    match c.machine.system.toMemory, connectedStep cfg mcfg c .attendKernel with
    | .initProcessStructuresMemory pcb::_, some after =>
      [(pcb.processId, .fill (slotContents mcfg (site after.machine) pcb.processId))]
    | _, _ => []
  | .frameRequest => []
  | .processDispatch times =>
    match c.machine.system.cpuThread, connectedStep cfg mcfg c (.processDispatch times) with
    | .running _ pcb, some after =>
      if keepsRunning c.machine.system.cpu ∧ after.machine.system.cpu.pageFault = false then
        [(pcb.processId, .execute)]
      else []
    | _, _ => []

/-- The memories of the private computers as one flat memory. -/
def memories (world : World) : Flat := fun pid =>
  (world pid).elim (fun _ _ _ => 0) Computer.memory

structure Follows (cfg : KernelConfig) (mcfg : MemoryConfig) (c : Connected) (world : World) :
    Prop where
  coherent : Coherent cfg mcfg c.machine
  asked : Asked cfg.cpu mcfg c
  backed : Backed mcfg (site c.machine) (memories world)
  known : Known world c.machine.system
  created : ∀ pid, world pid ≠ none → Created c.machine.system pid

section Worlds
variable {world : World} {pid : ℤ} {computer : Computer}

theorem memories_update (world : World) (pid : ℤ) (computer : Computer) :
    memories (Function.update world pid (some computer)) =
      Function.update (memories world) pid computer.memory := by
  funext other
  by_cases hpid : other = pid
  · simp [memories, hpid]
  · simp [memories, hpid]

theorem memories_some (h : world pid = some computer) : memories world pid = computer.memory := by
  simp [memories, h]

/-- A new computer has the bytes that a process without one has. -/
theorem memories_created (h : world pid = none) (pcb : Pcb) :
    memories (Function.update world pid (some ⟨context pcb, fun _ _ _ => 0⟩)) = memories world := by
  rw [memories_update]
  refine Function.update_eq_self_iff.mpr ?_
  simp [memories, h]

theorem known_filled {s : System} (hknown : Known world s) (h : world pid = some computer)
    (memory : Bytes) : Known (Function.update world pid (some { computer with memory := memory })) s := by
  refine known_update hknown (fun q hq hid => ?_) fun q hq _ => ⟨q, hq, rfl⟩
  obtain ⟨found, hfound, hsame⟩ := hknown q hq
  rw [hid, h] at hfound
  obtain rfl := Option.some.inj hfound
  exact hsame

theorem update_created {s t : System} (hcreated : ∀ p, world p ≠ none → Created s p)
    (hkept : ∀ p, Created s p → Created t p) (hpid : Created t pid) (p : ℤ)
    (h : Function.update world pid (some computer) p ≠ none) : Created t p := by
  by_cases hp : p = pid
  · exact hp ▸ hpid
  · rw [Function.update_of_ne hp] at h
    exact hkept p (hcreated p h)

theorem created_kept {cfg : KernelConfig} {s t : System} {e : Event} (hs : Sound cfg s)
    (h : step cfg s e = some t) (p : ℤ) (hp : Created s p) : Created t p := by
  have hbefore := hs.registered.counter
  have hafter := (step_sound hs h).registered.counter
  have hlength : s.created.length ≤ t.created.length := by
    cases step_moved hs h with
    | stays hcreated _ | moves _ _ _ _ hcreated _ => rw [hcreated]
    | born pcb hcreated _ => simp [hcreated]
  exact ⟨hp.1, by have := hp.2; omega⟩

end Worlds

section Moves
variable {cfg : KernelConfig} {mcfg : MemoryConfig} {c c' : Connected} {world : World}

theorem nothing_asked (times : Readings) (h : executes c.machine.system = false) :
    nextRequest cfg c times = none := by
  cases hthread : c.machine.system.cpuThread with
  | running dispatch pcb =>
    have hkeep : keepsRunning c.machine.system.cpu = false := by
      simpa [executes, hthread] using h
    simp [nextRequest, hthread, hkeep]
  | _ => simp [nextRequest, hthread]

/-- The instruction has the same effect on the context as on the PCB. -/
theorem effect_saved {computer : Computer} {cpu : Cpu} {pcb : Pcb}
    (recalled : LogicalAddressParameters → UInt32) (instruction : List String)
    (h : computer.context = context (saveContextPcb cpu pcb)) :
    effect cfg.cpu recalled computer.context.cpuRegisters computer.context instruction =
      effect cfg.cpu recalled cpu.registers pcb instruction := by
  rw [h, effect_context]
  rfl

/-- The private computers follow a thread of the kernel or a console. -/
theorem thread_followed {e : Event} (valid : ValidConfig mcfg) (hf : Follows cfg mcfg c world)
    (h : connectedStep cfg mcfg c (.thread e) = some c') :
    ∃ world', run (family (compute cfg.cpu)) world (tasks cfg mcfg c (.thread e)) = some world' ∧
      Follows cfg mcfg c' world' := by
  have hcoherent := connected_coherent valid hf.coherent hf.asked (by trivial) h
  have hasked := connected_asked valid hf.coherent hf.asked (by trivial) h
  have hs := hf.coherent.sound
  obtain ⟨hthread, t, hstep, rfl⟩ : isThread e = true ∧ ∃ t,
      step cfg c.machine.system e = some t ∧
        c' = { c with machine := { c.machine with system := t } } := by
    obtain ⟨w, hact, rfl⟩ := Option.map_eq_some_iff.mp h
    simp only [act, Option.ite_none_right_eq_some, Option.map_eq_some_iff] at hact
    obtain ⟨he, t, ht, rfl⟩ := hact
    exact ⟨he, t, ht, rfl⟩
  have hkept := created_kept hs hstep
  have hmemory {flat : Flat} (hb : Backed mcfg (site c.machine) flat) :
      Backed mcfg (site { c.machine with system := t }) flat := hb
  cases hcreated : createdPcb c.machine.system e with
  | some pcb =>
    obtain ⟨hfresh, hborn, hknown⟩ := created_known hs hf.known hcreated hstep
    have hnone : world pcb.processId = none := by
      by_contra hsome
      exact hfresh (hf.created _ hsome)
    have htyped : typedValue c.machine.system e = none := by
      cases e with
      | console i value => simp [createdPcb] at hcreated
      | _ => rfl
    refine ⟨_, ?_, hcoherent, hasked, ?_, hknown, update_created hf.created hkept hborn⟩
    · simp only [tasks, hcreated, htyped, Option.map_some, Option.map_none, Option.toList_some,
        Option.toList_none, List.append_nil]
      exact run_one (compute cfg.cpu) (by rw [hnone]; rfl)
    · rw [memories_created hnone]
      exact hmemory hf.backed
  | none =>
    have hsame (htyped : typedValue c.machine.system e = none) (hknown : Known world t) :
        ∃ world', run (family (compute cfg.cpu)) world (tasks cfg mcfg c (.thread e)) =
          some world' ∧ Follows cfg mcfg _ world' :=
      ⟨world, by simp [tasks, hcreated, htyped, run], hcoherent, hasked, hmemory hf.backed, hknown,
        fun p hp => hkept p (hf.created p hp)⟩
    by_cases hconsole : ∃ i value, e = .console i value
    · obtain ⟨i, value, rfl⟩ := hconsole
      obtain ⟨htyped, hknown⟩ | ⟨pid, register, computer, htyped, hcomputer, hknown⟩ :=
        console_known hs (step_sound hs hstep) hf.known hstep
      · exact hsame htyped hknown
      · refine ⟨_, ?_, hcoherent, hasked, ?_, hknown, update_created hf.created hkept
          (hkept _ (hf.created pid (by simp [hcomputer])))⟩
        · simp only [tasks, hcreated, htyped, Option.map_some, Option.map_none, Option.toList_some,
            Option.toList_none, List.nil_append]
          exact run_one (compute cfg.cpu) (by rw [hcomputer]; rfl)
        · rw [memories_update, typed, ← memories_some hcomputer, Function.update_eq_self]
          exact hmemory hf.backed
    · have htyped : typedValue c.machine.system e = none := by
        cases e with
        | console i value => exact absurd ⟨i, value, rfl⟩ hconsole
        | _ => rfl
      refine hsame htyped (thread_known hs hf.known hthread hcreated (fun i value he => ?_) hstep)
      exact hconsole ⟨i, value, he⟩

/-- A turn of memory for the kernel gives a new process its first bytes, at most. -/
theorem served_followed (valid : ValidConfig mcfg) (hf : Follows cfg mcfg c world)
    (hg : Sheltered cfg mcfg c .attendKernel)
    (h : connectedStep cfg mcfg c .attendKernel = some c') :
    ∃ world', run (family (compute cfg.cpu)) world (tasks cfg mcfg c .attendKernel) = some world' ∧
      Follows cfg mcfg c' world' := by
  have hcoherent := connected_coherent valid hf.coherent hf.asked hg h
  have hasked := connected_asked valid hf.coherent hf.asked hg h
  obtain ⟨w, hact, hc'⟩ := Option.map_eq_some_iff.mp h
  obtain ⟨request, rest, memory, answer, hq, hserved, rfl⟩ : ∃ request rest memory answer,
      c.machine.system.toMemory = request::rest ∧
        attendKernel mcfg c.machine.memory request = some (memory, answer) ∧
        w = served mcfg c.machine request rest memory answer := by
    obtain ⟨_, _, ha, -⟩ | ⟨request, rest, memory, answer, -, hrest⟩ | ⟨_, _, _, ha, -⟩ |
      ⟨_, _, _, ha, -⟩ := act_cases hact
    case inr.inl => exact ⟨request, rest, memory, answer, hrest⟩
    all_goals cases ha
  subst hc'
  have hbacked := backed_served valid hf.coherent hf.backed hq hg hserved
  have hknown := served_known hq hserved hf.known
  cases request with
  | initProcessStructuresMemory pcb =>
    have hheld : Held c.machine.system pcb :=
      Or.inr (by simp [pendingCopies, copies, hq])
    obtain ⟨computer, hcomputer, -⟩ := hf.known pcb hheld
    set bytes := slotContents mcfg (site (served mcfg c.machine (.initProcessStructuresMemory pcb)
      rest memory answer)) pcb.processId with hbytes
    refine ⟨_, ?_, hcoherent, hasked, ?_, known_filled hknown hcomputer bytes,
      update_created hf.created (fun _ hp => hp) (hf.created _ (by simp [hcomputer]))⟩
    · simp only [tasks, hq, h]
      exact run_one (compute cfg.cpu) (by rw [hcomputer]; rfl)
    · rw [memories_update]
      exact hbacked
  | requestPageFault pcb segment page =>
    exact ⟨world, by simp [tasks, hq, run], hcoherent, hasked, hbacked, hknown, hf.created⟩
  | endStructures pcb =>
    exact ⟨world, by simp [tasks, hq, run], hcoherent, hasked, hbacked, hknown, hf.created⟩

/-- An instruction that completes is one of its process, and one that faults is none. -/
theorem executed_followed (hpage : cfg.cpu.tamPagina = mcfg.tamPagina) (valid : ValidConfig mcfg)
    {dispatch : Dispatch} {pcb : Pcb} {times : Readings} (hf : Follows cfg mcfg c world)
    (hg : Sheltered cfg mcfg c (.processDispatch times))
    (hthread : c.machine.system.cpuThread = .running dispatch pcb)
    (hkeep : keepsRunning c.machine.system.cpu = true)
    (h : connectedStep cfg mcfg c (.processDispatch times) = some c') :
    ∃ world', run (family (compute cfg.cpu)) world (tasks cfg mcfg c (.processDispatch times)) =
        some world' ∧ Follows cfg mcfg c' world' := by
  have hcoherent := connected_coherent valid hf.coherent hf.asked hg h
  have hasked := connected_asked valid hf.coherent hf.asked hg h
  obtain ⟨cpu, hsystem, -, hcomputed⟩ :=
    turn_computes hpage hf.coherent hf.asked hf.backed hg hthread hkeep h
  have hheld : Held c.machine.system (saveContextPcb c.machine.system.cpu pcb) :=
    at_cpu_held (by simp [atCpu, hthread])
  obtain ⟨computer, hcomputer, hcontext⟩ := hf.known _ hheld
  have hpid : world pcb.processId = some computer := hcomputer
  have hcpu : c'.machine.system.cpu = cpu := by rw [hsystem]
  have hcreated (p : ℤ) (hp : Created c.machine.system p) : Created c'.machine.system p := by
    rw [hsystem]
    exact hp
  cases hcomputed with
  | faults hfault hregisters hbacked =>
    have hsame : computer.context = context (saveContextPcb cpu
        (if cpu.pageFault then pcb else updateProgramCounter pcb)) := by
      rw [hfault, if_pos rfl, hcontext, saveContextPcb, saveContextPcb, hregisters]
    have hknown := executed_known hf.known hcoherent.sound hsystem (by split <;> rfl) hsame
    rw [← hpid, Function.update_eq_self] at hknown
    exact ⟨world, by simp [tasks, hthread, h, hcpu, hfault, run], hcoherent, hasked, hbacked, hknown,
      fun p hp => hcreated p (hf.created p hp)⟩
  | completes line eff hfault hfetched hdone hregisters hbacked =>
    have hline : fetchNextInstructionToExecute computer.context = some line := by
      rw [hcontext]
      exact hfetched
    have heffect : effect cfg.cpu (recalled computer.memory) computer.context.cpuRegisters
        computer.context (decode cfg.cpu line) = some eff := by
      rw [effect_saved _ _ hcontext, ← memories_some hpid, hdone]
    have hnext : (afterEffect computer eff).context = context (saveContextPcb cpu
        (if cpu.pageFault then pcb else updateProgramCounter pcb)) := by
      rw [hfault, if_neg (by simp), saveContextPcb, hregisters, afterEffect, hcontext]
      rfl
    refine ⟨_, ?_, hcoherent, hasked, ?_,
      executed_known hf.known hcoherent.sound hsystem (by split <;> rfl) hnext,
      update_created hf.created hcreated (hcreated _ (hf.created _ (by simp [hpid])))⟩
    · simp only [tasks, hthread, h, hkeep, hcpu, hfault, and_self, if_true]
      refine run_one (compute cfg.cpu) ?_
      rw [hpid]
      simp [compute, hline, heffect]
    · rw [memories_update, afterEffect, ← memories_some hpid]
      exact hbacked

theorem move_followed (hpage : cfg.cpu.tamPagina = mcfg.tamPagina) (valid : ValidConfig mcfg)
    {move : Move} (hf : Follows cfg mcfg c world) (hg : Sheltered cfg mcfg c move)
    (h : connectedStep cfg mcfg c move = some c') :
    ∃ world', run (family (compute cfg.cpu)) world (tasks cfg mcfg c move) = some world' ∧
      Follows cfg mcfg c' world' := by
  cases move with
  | thread e => exact thread_followed valid hf h
  | attendKernel => exact served_followed valid hf hg h
  | frameRequest =>
    have hasked := connected_asked valid hf.coherent hf.asked hg h
    obtain ⟨_, _, _, _, -, -, -, rfl⟩ := frame_request_some h
    exact ⟨world, rfl, hf.coherent, hasked, hf.backed, hf.known, hf.created⟩
  | processDispatch times =>
    by_cases hexecutes : executes c.machine.system = true
    · cases hthread : c.machine.system.cpuThread with
      | running dispatch pcb =>
        exact executed_followed hpage valid hf hg hthread (by simpa [executes, hthread] using hexecutes) h
      | _ => simp [executes, hthread] at hexecutes
    · have hstop : executes c.machine.system = false := by simpa using hexecutes
      have hcoherent := connected_coherent valid hf.coherent hf.asked hg h
      have hasked := connected_asked valid hf.coherent hf.asked hg h
      have htasks : tasks cfg mcfg c (.processDispatch times) = [] := by
        cases hthread : c.machine.system.cpuThread with
        | running dispatch pcb =>
          have hkeep : keepsRunning c.machine.system.cpu = false := by
            simpa [executes, hthread] using hstop
          simp [tasks, hthread, h, hkeep]
        | _ => simp [tasks, hthread]
      obtain ⟨value, t, memory, hturn, -, rfl, ⟨-, rfl⟩ | ⟨_, hasks, -⟩⟩ := turn_acts hf.asked h
      · have hknown := waiting_known hf.coherent.sound.flags hstop hf.known hturn
        obtain ⟨_, _, _, _, _, _, _, rfl⟩ := process_dispatch_frame hturn
        exact ⟨world, by rw [htasks]; rfl, hcoherent, hasked, hf.backed, hknown, hf.created⟩
      · simp [nothing_asked times hstop] at hasks

theorem power_follows (valid : ValidConfig mcfg) (time : TimeVal) (ram swap : ℕ → UInt8) :
    Follows cfg mcfg (power cfg mcfg time ram swap) fun _ => none where
  coherent := start_coherent valid time ram swap
  asked := by simp [Asked, power]
  backed := linked_forget (boot_linked valid ram swap _)
  known := by
    intro pcb hp
    obtain ⟨hlow, hhigh⟩ := held_created (boot_sound cfg time) hp
    have hcounter : (KernelState.boot cfg time).pidCounter = 1 := rfl
    omega
  created := by simp

end Moves

/-- A byte of a page of a process, in its frame or in its slot. -/
def pageByte (mcfg : MemoryConfig) (w : Machine) (pid segment page : ℤ) (k : ℕ) : Option UInt8 := do
  let segments ← w.live pid
  let v ← requestedPage segments segment page
  let x ← row w.memory v
  if k < mcfg.tamPagina then some (contents mcfg w.memory x k) else none

/-- What the machine has of a process is what its private computer has. -/
structure Mirrors (mcfg : MemoryConfig) (c : Connected) (world : World) : Prop where
  contexts : ∀ pcb, Held c.machine.system pcb →
    ∃ computer, world pcb.processId = some computer ∧ computer.context = context pcb
  bytes : ∀ pid segment page k, ∀ byte ∈ pageByte mcfg c.machine pid segment page k,
    byte = memories world pid segment page k

theorem follows_mirrors {cfg : KernelConfig} {mcfg : MemoryConfig} {c : Connected} {world : World}
    (hf : Follows cfg mcfg c world) : Mirrors mcfg c world where
  contexts := hf.known
  bytes := by
    intro pid segment page k byte hbyte
    simp only [pageByte, Option.mem_def, Option.bind_eq_bind, Option.bind_eq_some_iff,
      Option.ite_none_right_eq_some, Option.some.injEq] at hbyte
    obtain ⟨segments, hlive, v, hv, x, hx, hk, rfl⟩ := hbyte
    exact hf.backed.bytes pid segments segment page v x hlive hv hx k hk

/-- What happens to one process, in the order of the run. -/
def ownTasks (cfg : KernelConfig) (mcfg : MemoryConfig) (c : Connected) (moves : List Move)
    (pid : ℤ) : List Task :=
  ownLabels pid (collected (connectedStep cfg mcfg) (tasks cfg mcfg) c moves)

theorem private_run {cfg : KernelConfig} {mcfg : MemoryConfig} (valid : ValidConfig mcfg)
    (hpage : cfg.cpu.tamPagina = mcfg.tamPagina) (time : TimeVal) (ram swap : ℕ → UInt8)
    (moves : List Move)
    (hg : Guarded (connectedStep cfg mcfg) (Sheltered cfg mcfg) (power cfg mcfg time ram swap) moves)
    (c : Connected) (h : run (connectedStep cfg mcfg) (power cfg mcfg time ram swap) moves = some c) :
    ∃ world : World, Mirrors mcfg c world ∧ ∀ pid, run (compute cfg.cpu) none
      (ownTasks cfg mcfg (power cfg mcfg time ram swap) moves pid) = some (world pid) := by
  obtain ⟨world, hworld, hf⟩ := guarded_refinement (connectedStep cfg mcfg)
    (family (compute cfg.cpu)) (Follows cfg mcfg) (tasks cfg mcfg) (Sheltered cfg mcfg)
    (fun _ _ _ _ hf hg h => move_followed hpage valid hf hg h) moves _ c _
    (power_follows valid time ram swap) hg h
  exact ⟨world, follows_mirrors hf, fun pid => run_own (compute cfg.cpu) pid _ _ world hworld⟩

/-- Along a run of the whole machine every process computes as a private computer does
on what happens to that process alone. -/
theorem private_computers (cfg : KernelConfig) (mcfg : MemoryConfig) (valid : ValidConfig mcfg)
    (hpage : cfg.cpu.tamPagina = mcfg.tamPagina) (time : TimeVal) (ram swap : ℕ → UInt8)
    (moves : List Move)
    (hg : Guarded (connectedStep cfg mcfg) (Sheltered cfg mcfg) (power cfg mcfg time ram swap) moves)
    (c : Connected) (h : run (connectedStep cfg mcfg) (power cfg mcfg time ram swap) moves = some c) :
    ∃ world : World, Mirrors mcfg c world ∧ ∀ pid, run (compute cfg.cpu) none
      (ownTasks cfg mcfg (power cfg mcfg time ram swap) moves pid) = some (world pid) :=
  private_run valid hpage time ram swap moves hg c h

def cpuTurn : Move := .processDispatch ⟨midnight, midnight⟩

/-- A console connects and its process is admitted. -/
def joining (i : ℕ) (instructions : List String) : List Move :=
  Move.thread (.connect instructions ["8"])::List.replicate 7 (Move.thread (.receiveConsole i))++
    Move.attendKernel::List.replicate 3 (Move.thread .manageMemory)++
    List.replicate 5 (Move.thread (.receiveConsole i))

/-- A process stores, faults, stores again and loads. -/
def storing : List Move :=
  joining 0 ["SET AX 7", "MOV_OUT 0 AX", "MOV_IN BX 0", "EXIT"]++
    List.replicate 6 (Move.thread .scheduleNextToRunning)++
    [cpuTurn, cpuTurn, .frameRequest, cpuTurn, cpuTurn, cpuTurn, cpuTurn]++
    List.replicate 4 (Move.thread .manageDispatch)++
    List.replicate 2 (Move.thread (.resolvePageFault 0))++
    Move.attendKernel::List.replicate 3 (Move.thread .manageMemory)++
    List.replicate 6 (Move.thread .scheduleNextToRunning)++
    [cpuTurn, .frameRequest, cpuTurn, cpuTurn]

def powered (algorithm : Algorithm) : Connected :=
  power (smallKernel algorithm) smallConfig midnight zeros zeros

def reachedBy (algorithm : Algorithm) (moves : List Move) : Connected :=
  reached (connectedStep (smallKernel algorithm) smallConfig) (powered algorithm) moves

theorem private_computers_storing :
    (∃ world : World, Mirrors smallConfig (reachedBy .fifo storing) world ∧
      ∀ pid, run (compute smallCpu) none
        (ownTasks (smallKernel .fifo) smallConfig (powered .fifo) storing pid) = some (world pid)) ∧
    (reachedBy .fifo storing).machine.system.cpu.registers.bx = 7 ∧
    pageByte smallConfig (reachedBy .fifo storing).machine 1 0 0 0 = some 7 :=
  ⟨private_computers (smallKernel .fifo) smallConfig small_config_valid rfl midnight zeros zeros
    storing (by decide +kernel) _ (run_reached _ _ _ (by decide +kernel)),
    by decide +kernel, by decide +kernel⟩

/-- Two CPUs that read programs and addresses the same way; their TLBs may differ. -/
structure SameArchitecture (cfg cfg' : CpuConfig) : Prop where
  page : cfg.tamPagina = cfg'.tamPagina
  entries : cfg.entradasPorTabla = cfg'.entradasPorTabla
  split : cfg.stringSplit = cfg'.stringSplit

theorem compute_same {cfg cfg' : CpuConfig} (h : SameArchitecture cfg cfg') :
    compute cfg = compute cfg' := by
  funext computer task
  have htranslate (a : ℤ) (pcb : Pcb) :
      translateLogicalAddress cfg a pcb = translateLogicalAddress cfg' a pcb := by
    simp only [translateLogicalAddress, h.page, h.entries]
  have heffect (recalled : LogicalAddressParameters → UInt32) (r : Registers) (pcb : Pcb)
      (line : String) : effect cfg recalled r pcb (decode cfg line) =
        effect cfg' recalled r pcb (decode cfg' line) := by
    simp only [effect, decode, h.split, htranslate]
  cases computer <;> cases task <;> simp only [compute, heffect]

section Neighbours
variable {cfg cfg' : KernelConfig} {mcfg mcfg' : MemoryConfig}

/-- Whatever else two machines run, and however they schedule it and replace its pages, a
process to which the same has happened on both has the same registers, program counter and
bytes. -/
theorem neighbours_do_not_matter (hcfg : SameArchitecture cfg.cpu cfg'.cpu)
    (valid : ValidConfig mcfg) (valid' : ValidConfig mcfg') (hpage : cfg.cpu.tamPagina = mcfg.tamPagina)
    (hpage' : cfg'.cpu.tamPagina = mcfg'.tamPagina) (time time' : TimeVal)
    (ram ram' swap swap' : ℕ → UInt8) (moves moves' : List Move)
    (hg : Guarded (connectedStep cfg mcfg) (Sheltered cfg mcfg) (power cfg mcfg time ram swap) moves)
    (hg' : Guarded (connectedStep cfg' mcfg') (Sheltered cfg' mcfg')
      (power cfg' mcfg' time' ram' swap') moves')
    (c c' : Connected)
    (h : run (connectedStep cfg mcfg) (power cfg mcfg time ram swap) moves = some c)
    (h' : run (connectedStep cfg' mcfg') (power cfg' mcfg' time' ram' swap') moves' = some c')
    (pid : ℤ) (hsame : ownTasks cfg mcfg (power cfg mcfg time ram swap) moves pid =
      ownTasks cfg' mcfg' (power cfg' mcfg' time' ram' swap') moves' pid) :
    (∀ p q, Held c.machine.system p → Held c'.machine.system q → p.processId = pid →
      q.processId = pid → context p = context q) ∧
    ∀ segment page k, ∀ byte ∈ pageByte mcfg c.machine pid segment page k,
      ∀ byte' ∈ pageByte mcfg' c'.machine pid segment page k, byte = byte' := by
  obtain ⟨world, hmirrors, hrun⟩ := private_run valid hpage time ram swap moves hg c h
  obtain ⟨world', hmirrors', hrun'⟩ := private_run valid' hpage' time' ram' swap' moves' hg' c' h'
  have hworld : world pid = world' pid := by
    have hleft := hrun pid
    rw [hsame, compute_same hcfg] at hleft
    exact Option.some.inj (hleft.symm.trans (hrun' pid))
  refine ⟨fun p q hp hq hpid hqid => ?_, fun segment page k byte hbyte byte' hbyte' => ?_⟩
  · obtain ⟨computer, hcomputer, hcontext⟩ := hmirrors.contexts p hp
    obtain ⟨computer', hcomputer', hcontext'⟩ := hmirrors'.contexts q hq
    rw [hpid, hworld, ← hqid, hcomputer'] at hcomputer
    rw [← hcontext, ← hcontext', Option.some.inj hcomputer]
  · rw [hmirrors.bytes _ _ _ _ _ hbyte, hmirrors'.bytes _ _ _ _ _ hbyte', memories, memories, hworld]

end Neighbours

def alone : List Move :=
  joining 0 ["SET AX 7", "EXIT"]++List.replicate 7 (Move.thread .scheduleNextToRunning)++
    [cpuTurn, cpuTurn]

/-- The quantum of the process expires and another executes. -/
def neighbour : List Move :=
  joining 1 ["SET AX 9", "EXIT"]++List.replicate 9 (Move.thread (.countQuantum true))++
    List.replicate 3 (Move.thread .manageInterrupt)++
    [Move.thread .processInterrupt, cpuTurn, cpuTurn, cpuTurn]++
    List.replicate 5 (Move.thread .manageDispatch)++
    List.replicate 7 (Move.thread .scheduleNextToRunning)++[cpuTurn, cpuTurn]

theorem neighbours_do_not_matter_preempted :
    ((∀ p q, Held (reachedBy .rr alone).machine.system p →
        Held (reachedBy .rr (alone++neighbour)).machine.system q → p.processId = 1 →
        q.processId = 1 → context p = context q) ∧
      ∀ segment page k, ∀ byte ∈ pageByte smallConfig (reachedBy .rr alone).machine 1 segment page k,
        ∀ byte' ∈ pageByte smallConfig (reachedBy .rr (alone++neighbour)).machine 1 segment page k,
          byte = byte') ∧
    (reachedBy .rr (alone++neighbour)).machine.system.cpu.registers.ax = 9 := by
  have halone : run (connectedStep (smallKernel .rr) smallConfig) (powered .rr) alone =
      some (reachedBy .rr alone) := run_reached _ _ _ (by decide +kernel)
  have hafter : run (connectedStep (smallKernel .rr) smallConfig) (powered .rr) (alone++neighbour) =
      some (reachedBy .rr (alone++neighbour)) := run_reached _ _ _ (by decide +kernel)
  have hown : ownTasks (smallKernel .rr) smallConfig (reachedBy .rr alone) neighbour 1 = [] := by
    decide +kernel
  refine ⟨neighbours_do_not_matter ⟨rfl, rfl, rfl⟩ small_config_valid small_config_valid rfl rfl
    midnight midnight zeros zeros zeros zeros alone (alone++neighbour) (by decide +kernel)
    (by decide +kernel) (reachedBy .rr alone) (reachedBy .rr (alone++neighbour)) halone hafter 1 ?_,
    by decide +kernel⟩
  have hall : ownTasks (smallKernel .rr) smallConfig (powered .rr) (alone++neighbour) 1 =
      ownTasks (smallKernel .rr) smallConfig (powered .rr) alone 1++
        ownTasks (smallKernel .rr) smallConfig (reachedBy .rr alone) neighbour 1 := by
    rw [ownTasks, collected_append _ _ _ halone, ownLabels, List.filterMap_append]
    rfl
  rw [hown, List.append_nil] at hall
  exact hall.symm

end Geck.ProcessIsolation
