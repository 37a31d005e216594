import Geck.AccessFaults
import Geck.PrivateComputer

/-!
# The connection between the CPU and memory

A `MOV` that misses the TLB asks memory for the frame and then for the word.
Here the two requests are memory's own turns, with any turns of the kernel and
of memory for the kernel between them, and the value a load stores is the one
memory sent for it.
-/

set_option autoImplicit false

namespace Geck.CpuConnection
open Geck.LabelledRuns Geck.BlockStore Geck.SharedPcb Geck.MemoryState Geck.MemoryHandlers
open Geck.MemoryReplacement Geck.MemoryAccounting Geck.MemoryAllocation Geck.MemoryFaults
open Geck.MemorySystem Geck.CpuTranslation Geck.CpuExecution Geck.CpuEffects Geck.CpuFlags
open Geck.KernelState Geck.KernelThreads Geck.KernelFrames Geck.KernelLedger Geck.KernelInvariant
open Geck.KernelSoundness Geck.MemoryDegree Geck.PcbTrail Geck.WholeMachine Geck.SoleCopy
open Geck.AccessFaults Geck.PrivateComputer

/-- `answered` is what memory answered to the `FRAME_REQUEST` of the instruction
that is being executed. -/
structure Connected where
  machine : Machine
  answered : Option CpuResponse

inductive Move where
  | thread (e : Event)
  | attendKernel
  | frameRequest
  | processDispatch (times : Readings)

/-- A CPU that needs a frame and has no answer does not go on. -/
def givenAnswers (c : Connected) (value : CpuResponse) (times : Readings) : Answers where
  frame := c.answered.getD .movOutOk
  value := value
  times := times

/-- `fetch_value_in_memory` and `write_value`: what an access sends to memory. -/
def accessRequest (pcb : Pcb) : Access → Option CpuRequest
  | .load params physicalAddress _ =>
    some (.movIn physicalAddress pcb params.segmentNumber params.pageNum)
  | .store params physicalAddress value =>
    (listGet pcb.segmentTable params.segmentNumber).map fun segment =>
      .movOut physicalAddress value segment.indexPage pcb.processId

/-- The request of the instruction that is executed next. It is sent before any
value is received, so any value shows it. -/
def nextRequest (cfg : KernelConfig) (c : Connected) (times : Readings) : Option CpuRequest :=
  match c.machine.system.cpuThread with
  | .running _ pcb =>
    if keepsRunning c.machine.system.cpu then do
      let (_, _, access) ← instructionCycle cfg.cpu (givenAnswers c (.movInOk 0) times)
        c.machine.system.cpu pcb
      accessRequest pcb (← access)
    else none
  | _ => none

/-- A turn of the CPU that leaves memory as `memory`. -/
def turned (cfg : KernelConfig) (c : Connected) (memory : Memory) (value : CpuResponse)
    (times : Readings) : Option Connected :=
  (processDispatch cfg c.machine.system (givenAnswers c value times)).map fun t =>
    ⟨{ c.machine with
      system := t
      memory := memory
      faults := faultsExecuted c.machine.faults c.machine.system t }, none⟩

def connectedStep (cfg : KernelConfig) (mcfg : MemoryConfig) (c : Connected) :
    Move → Option Connected
  | .thread e => (act cfg mcfg c.machine (.thread e)).map fun w => { c with machine := w }
  | .attendKernel => (act cfg mcfg c.machine .attendKernel).map fun w => { c with machine := w }
  | .frameRequest =>
    if executes c.machine.system then do
      let pcb ← runningPcb c.machine.system.cpuThread
      let (segment, page) ← nextPage cfg.cpu pcb
      let (memory, answer) ← attendCpu mcfg c.machine.memory (.frameRequest pcb page segment)
      some ⟨{ c.machine with memory := memory }, some answer⟩
    else none
  | .processDispatch times =>
    match nextRequest cfg c times with
    | none => turned cfg c c.machine.memory .movOutOk times
    | some request => do
      let (memory, answer) ← attendCpu mcfg c.machine.memory request
      turned cfg c memory answer times

def power (cfg : KernelConfig) (mcfg : MemoryConfig) (time : TimeVal) (ram swap : ℕ → UInt8) :
    Connected :=
  ⟨start cfg mcfg time ram swap, none⟩

/-- The answer that is kept is what memory would answer now. -/
def Asked (cfg : CpuConfig) (mcfg : MemoryConfig) (c : Connected) : Prop :=
  ∀ answer, c.answered = some answer → ∃ pcb,
    runningPcb c.machine.system.cpuThread = some pcb ∧
      answer = frameAnswer cfg mcfg c.machine.memory pcb

/-- The next instruction is a `MOV` to an address of its segment. -/
def nextMov (cfg : CpuConfig) (pcb : Pcb) : Option LogicalAddressParameters := do
  let line ← fetchNextInstructionToExecute pcb
  let a ← movAddress (decode cfg line)
  let (params, outside) ← translateLogicalAddress cfg a pcb
  if outside then none else some params

/-- A request of the kernel finds what it needs. The word of a `MOV` lies in one
page, and the frame that the TLB has for that page is the one memory has. -/
def Sheltered (cfg : KernelConfig) (mcfg : MemoryConfig) (c : Connected) : Move → Prop
  | .attendKernel => Resourced mcfg c.machine .attendKernel
  | .processDispatch times => ∀ pcb ∈ runningPcb c.machine.system.cpuThread,
      ∀ params ∈ nextMov cfg.cpu pcb,
        (0 ≤ params.pageOffset ∧ params.pageOffset+4 ≤ cfg.cpu.tamPagina) ∧
        ∀ visited ∈ presentInTlb cfg.cpu c.machine.system.cpu.tlb params.pageNum
            params.segmentNumber pcb.processId times.lookup,
          visited.1 = -1 ∨ getFrameNumberRAM c.machine.memory pcb params.pageNum
            params.segmentNumber = some visited.1
  | _ => True

instance (cfg : KernelConfig) (mcfg : MemoryConfig) (c : Connected) :
    ∀ move, Decidable (Sheltered cfg mcfg c move)
  | .thread _ => inferInstanceAs (Decidable True)
  | .attendKernel => inferInstanceAs (Decidable (Resourced mcfg c.machine .attendKernel))
  | .frameRequest => inferInstanceAs (Decidable True)
  | .processDispatch _ => inferInstanceAs
      (Decidable (∀ pcb ∈ _, ∀ params ∈ _, _ ∧ ∀ visited ∈ _, _))

section Answers
variable {cfg : CpuConfig} {value : CpuResponse} {times : Readings} {cpu cpu' : Cpu} {pcb : Pcb}

/-- Without the answer to a frame request only a TLB hit gives an address. -/
theorem build_physical_address_unasked {tlb : List RowTlb} {params : LogicalAddressParameters}
    {built : ℤ × List RowTlb × Bool} (frame : CpuResponse)
    (h : buildPhysicalAddress cfg tlb (some .movOutOk) times params pcb = some built) :
    buildPhysicalAddress cfg tlb (some frame) times params pcb = some built := by
  simp only [buildPhysicalAddress, Option.bind_eq_bind, Option.bind_eq_some_iff] at h ⊢
  obtain ⟨⟨found, visited⟩, hfound, h⟩ := h
  refine ⟨(found, visited), hfound, ?_⟩
  split at h
  · simp [findFrame] at h
  · next hmiss => rwa [if_neg hmiss]

theorem with_address_unasked {a : ℤ}
    {access : Cpu → LogicalAddressParameters → ℤ → Option (Cpu × Option Access)}
    {made : Option Access} (frame : CpuResponse)
    (h : withAddress cfg ⟨.movOutOk, value, times⟩ cpu pcb a access = some (cpu', made)) :
    withAddress cfg ⟨frame, value, times⟩ cpu pcb a access = some (cpu', made) := by
  simp only [withAddress, Option.bind_eq_bind, Option.bind_eq_some_iff] at h ⊢
  obtain ⟨⟨params, outside⟩, ht, h⟩ := h
  refine ⟨(params, outside), ht, ?_⟩
  by_cases hseg : (if outside then { cpu with sigsegv := true } else cpu).sigsegv = true
  · rwa [if_pos hseg] at h ⊢
  · rw [if_neg hseg] at h ⊢
    obtain ⟨built, hbuilt, h⟩ := Option.bind_eq_some_iff.mp h
    exact Option.bind_eq_some_iff.mpr ⟨built, build_physical_address_unasked frame hbuilt, h⟩

theorem execute_instruction_unasked {instruction : List String} {made : Option Access}
    (frame : CpuResponse)
    (h : executeInstruction cfg ⟨.movOutOk, value, times⟩ cpu pcb instruction = some (cpu', made)) :
    executeInstruction cfg ⟨frame, value, times⟩ cpu pcb instruction = some (cpu', made) := by
  simp only [executeInstruction, Option.bind_eq_bind, Option.bind_eq_some_iff] at h ⊢
  obtain ⟨name, hname, h⟩ := h
  refine ⟨name, hname, ?_⟩
  cases hkey : keyfromstring name with
  | movIn | movOut =>
    simp only [hkey, Option.bind_eq_some_iff] at h ⊢
    obtain ⟨first, h1, second, h2, h⟩ := h
    exact ⟨first, h1, second, h2, with_address_unasked frame h⟩
  | _ => simpa only [hkey] using h

theorem instruction_cycle_unasked {turn : Cpu × Pcb × Option Access} (frame : CpuResponse)
    (h : instructionCycle cfg ⟨.movOutOk, value, times⟩ cpu pcb = some turn) :
    instructionCycle cfg ⟨frame, value, times⟩ cpu pcb = some turn := by
  simp only [instructionCycle, Option.bind_eq_bind, Option.bind_eq_some_iff] at h ⊢
  obtain ⟨line, hline, ⟨after, made⟩, hexec, h⟩ := h
  exact ⟨line, hline, (after, made), execute_instruction_unasked frame hexec, h⟩

/-- What is sent does not depend on what is received. -/
theorem with_address_sends {a : ℤ} {frame : CpuResponse}
    {access access₀ : Cpu → LogicalAddressParameters → ℤ → Option (Cpu × Option Access)}
    {made : Option Access} (haccess : ∀ c params address c' m,
      access c params address = some (c', m) → ∃ c₀ m₀, access₀ c params address = some (c₀, m₀) ∧
        m₀.bind (accessRequest pcb) = m.bind (accessRequest pcb))
    (h : withAddress cfg ⟨frame, value, times⟩ cpu pcb a access = some (cpu', made)) :
    ∃ cpu₀ made₀, withAddress cfg ⟨frame, .movInOk 0, times⟩ cpu pcb a access₀ =
        some (cpu₀, made₀) ∧ made₀.bind (accessRequest pcb) = made.bind (accessRequest pcb) := by
  simp only [withAddress, Option.bind_eq_bind, Option.bind_eq_some_iff] at h
  obtain ⟨⟨params, outside⟩, ht, h⟩ := h
  simp only [withAddress, ht, Option.bind_eq_bind, Option.bind_some]
  by_cases hseg : (if outside then { cpu with sigsegv := true } else cpu).sigsegv = true
  · rw [if_pos hseg] at h ⊢
    exact ⟨_, _, h, rfl⟩
  · rw [if_neg hseg] at h ⊢
    obtain ⟨⟨address, tlb, fault⟩, hbuilt, h⟩ := Option.bind_eq_some_iff.mp h
    simp only [hbuilt, Option.bind_some]
    by_cases hnone : address = -1
    · rw [if_pos hnone] at h ⊢
      exact ⟨_, _, h, rfl⟩
    · rw [if_neg hnone] at h ⊢
      exact haccess _ _ _ _ _ h

theorem mov_in_sends {register : String} {frame : CpuResponse} {c c' : Cpu}
    {params : LogicalAddressParameters} {address : ℤ} {made : Option Access}
    (h : movInAccess ⟨frame, value, times⟩ register c params address = some (c', made)) :
    ∃ c₀ made₀, movInAccess ⟨frame, .movInOk 0, times⟩ register c params address =
        some (c₀, made₀) ∧ made₀.bind (accessRequest pcb) = made.bind (accessRequest pcb) := by
  obtain ⟨loaded, -, rfl, -⟩ := InstructionSet.mov_in_access_some h
  exact ⟨_, _, rfl, rfl⟩

theorem execute_instruction_sends {instruction : List String} {frame : CpuResponse}
    {made : Option Access}
    (h : executeInstruction cfg ⟨frame, value, times⟩ cpu pcb instruction = some (cpu', made)) :
    ∃ cpu₀ made₀, executeInstruction cfg ⟨frame, .movInOk 0, times⟩ cpu pcb instruction =
        some (cpu₀, made₀) ∧ made₀.bind (accessRequest pcb) = made.bind (accessRequest pcb) := by
  simp only [executeInstruction, Option.bind_eq_bind, Option.bind_eq_some_iff] at h
  obtain ⟨name, hname, h⟩ := h
  simp only [executeInstruction, hname, Option.bind_eq_bind, Option.bind_some]
  cases hkey : keyfromstring name with
  | movIn =>
    simp only [hkey, Option.bind_eq_some_iff] at h
    obtain ⟨register, h1, logicalAddress, h2, h⟩ := h
    simp only [h1, h2, Option.bind_some]
    exact with_address_sends (fun _ _ _ _ _ => mov_in_sends) h
  | movOut =>
    simp only [hkey, Option.bind_eq_some_iff] at h
    obtain ⟨logicalAddress, h1, register, h2, h⟩ := h
    simp only [h1, h2, Option.bind_some]
    exact with_address_sends (fun _ _ _ c' m hm => ⟨c', m, hm, rfl⟩) h
  | _ =>
    simp only [hkey] at h
    exact ⟨cpu', made, h, rfl⟩

theorem instruction_cycle_sends {frame : CpuResponse} {pcb' : Pcb} {made : Option Access}
    (h : instructionCycle cfg ⟨frame, value, times⟩ cpu pcb = some (cpu', pcb', made)) :
    ∃ cpu₀ pcb₀ made₀, instructionCycle cfg ⟨frame, .movInOk 0, times⟩ cpu pcb =
        some (cpu₀, pcb₀, made₀) ∧ made₀.bind (accessRequest pcb) = made.bind (accessRequest pcb) := by
  simp only [instructionCycle, Option.bind_eq_bind, Option.bind_eq_some_iff] at h
  obtain ⟨line, hline, ⟨after, m⟩, hexec, h⟩ := h
  simp only [Option.some.injEq, Prod.mk.injEq] at h
  obtain ⟨rfl, rfl, rfl⟩ := h
  obtain ⟨cpu₀, made₀, hexec₀, hsame⟩ := execute_instruction_sends hexec
  refine ⟨cpu₀, if cpu₀.pageFault then pcb else updateProgramCounter pcb, made₀, ?_, hsame⟩
  simp [instructionCycle, hline, hexec₀]

end Answers

section Turns
variable {cfg : KernelConfig} {mcfg : MemoryConfig} {c c' : Connected} {value : CpuResponse}
  {times : Readings} {t : System}

/-- The kept answer is as good as one that memory would give now. -/
theorem given_cycle (hc : Asked cfg.cpu mcfg c) {dispatch : Dispatch} {pcb : Pcb}
    {turn : Cpu × Pcb × Option Access}
    (hthread : c.machine.system.cpuThread = .running dispatch pcb)
    (h : instructionCycle cfg.cpu (givenAnswers c value times) c.machine.system.cpu pcb =
      some turn) :
    instructionCycle cfg.cpu (executionAnswers cfg mcfg c.machine value times)
      c.machine.system.cpu pcb = some turn := by
  have hanswers : executionAnswers cfg mcfg c.machine value times =
      ⟨frameAnswer cfg.cpu mcfg c.machine.memory pcb, value, times⟩ := by
    simp [executionAnswers, runningPcb, hthread]
  cases hanswered : c.answered with
  | some answer =>
    obtain ⟨p, hp, rfl⟩ := hc answer hanswered
    obtain rfl : pcb = p := by simpa [runningPcb, hthread] using hp
    rw [hanswers, ← h, givenAnswers, hanswered, Option.getD_some]
  | none =>
    have hgiven : givenAnswers c value times = ⟨.movOutOk, value, times⟩ := by
      simp [givenAnswers, hanswered]
    rw [hgiven] at h
    rw [hanswers]
    exact instruction_cycle_unasked _ h

theorem given_answers (hc : Asked cfg.cpu mcfg c)
    (h : processDispatch cfg c.machine.system (givenAnswers c value times) = some t) :
    processDispatch cfg c.machine.system (executionAnswers cfg mcfg c.machine value times) =
      some t := by
  cases hthread : c.machine.system.cpuThread with
  | running dispatch pcb =>
    by_cases hkeep : keepsRunning c.machine.system.cpu = true
    · simp only [processDispatch, hthread, hkeep, if_true, Option.bind_eq_bind,
        Option.bind_eq_some_iff] at h ⊢
      obtain ⟨turn, hturn, h⟩ := h
      exact ⟨turn, given_cycle hc hthread hturn, h⟩
    · simp only [processDispatch, hthread, hkeep] at h ⊢
      exact h
  | receive | leaving dispatch pcb | sending reply =>
    simp only [processDispatch, hthread] at h ⊢
    exact h

/-- What the turn asks memory is what the instruction it executes sends. -/
theorem next_request_made {dispatch : Dispatch} {pcb next : Pcb} {cpu : Cpu}
    {made : Option Access} (hthread : c.machine.system.cpuThread = .running dispatch pcb)
    (hkeep : keepsRunning c.machine.system.cpu = true)
    (h : instructionCycle cfg.cpu (givenAnswers c value times) c.machine.system.cpu pcb =
      some (cpu, next, made)) :
    nextRequest cfg c times = made.bind (accessRequest pcb) := by
  have hsent : ∃ cpu₀ pcb₀ made₀, instructionCycle cfg.cpu (givenAnswers c (.movInOk 0) times)
      c.machine.system.cpu pcb = some (cpu₀, pcb₀, made₀) ∧
      made₀.bind (accessRequest pcb) = made.bind (accessRequest pcb) := instruction_cycle_sends h
  obtain ⟨cpu₀, pcb₀, made₀, hcycle, hsame⟩ := hsent
  simp only [nextRequest, hthread, hkeep, if_true, hcycle, Option.bind_eq_bind, Option.bind_some]
  exact hsame

/-- A turn of the CPU is one the machine takes, followed by what it asked of memory. -/
theorem turn_acts (hc : Asked cfg.cpu mcfg c)
    (h : connectedStep cfg mcfg c (.processDispatch times) = some c') :
    ∃ value t memory, processDispatch cfg c.machine.system (givenAnswers c value times) = some t ∧
      act cfg mcfg c.machine (.processDispatch value times) = some { c.machine with
        system := t
        faults := faultsExecuted c.machine.faults c.machine.system t } ∧
      c' = ⟨{ c.machine with
        system := t
        memory := memory
        faults := faultsExecuted c.machine.faults c.machine.system t }, none⟩ ∧
      (nextRequest cfg c times = none ∧ memory = c.machine.memory ∨
        ∃ request, nextRequest cfg c times = some request ∧
          attendCpu mcfg c.machine.memory request = some (memory, value)) := by
  cases hrequest : nextRequest cfg c times with
  | none =>
    simp only [connectedStep, hrequest, turned, Option.map_eq_some_iff] at h
    obtain ⟨t, ht, rfl⟩ := h
    exact ⟨.movOutOk, t, _, ht, by simp [act, given_answers hc ht], rfl, Or.inl ⟨rfl, rfl⟩⟩
  | some request =>
    simp only [connectedStep, hrequest, turned, Option.bind_eq_bind, Option.bind_eq_some_iff,
      Option.map_eq_some_iff] at h
    obtain ⟨⟨memory, value⟩, hserved, t, ht, rfl⟩ := h
    exact ⟨value, t, memory, ht, by simp [act, given_answers hc ht], rfl,
      Or.inr ⟨request, rfl, hserved⟩⟩

end Turns

section Frames
variable {cfg : KernelConfig} {mcfg : MemoryConfig} {w : Machine} {dispatch : Dispatch} {pcb : Pcb}

/-- The PCB that runs has the segment table memory has. -/
theorem running_live (hw : Coherent cfg mcfg w)
    (hthread : w.system.cpuThread = .running dispatch pcb) :
    w.live pcb.processId = some pcb.segmentTable := by
  have hcpu := hw.trail.cpu
  rw [hthread] at hcpu
  simp only [OnCpu, Executed] at hcpu
  split at hcpu
  · exact hcpu.1
  · exact hcpu.1

theorem running_elsewhere {s : System} {pid : ℤ} (haway : Away pid s)
    (hthread : s.cpuThread = .running dispatch pcb) : pcb.processId ≠ pid := by
  have hcpu := haway.cpu
  rw [hthread] at hcpu
  simpa only [OnCpu, Executed, ite_self] using hcpu

theorem frame_answer_same {cpu : CpuConfig} {m m' : Memory}
    (h : ∀ page segment, getFrameNumberRAM m' pcb page segment = getFrameNumberRAM m pcb page segment) :
    frameAnswer cpu mcfg m' pcb = frameAnswer cpu mcfg m pcb := by
  unfold frameAnswer
  cases nextPage cpu pcb with
  | none => rfl
  | some next =>
    obtain ⟨segment, page⟩ := next
    simp only [attendCpu, h]
    cases hframe : getFrameNumberRAM m pcb page segment with
    | none => rfl
    | some frame => by_cases hnone : frame = -1 <;> simp [hnone]

/-- What the kernel asks of memory is about no process that runs. -/
theorem served_frames (valid : ValidConfig mcfg) (hw : Coherent cfg mcfg w)
    (hthread : w.system.cpuThread = .running dispatch pcb) {request : KernelRequest}
    {rest : List KernelRequest} {memory : Memory} {answer : Option KernelResponse}
    (hq : w.system.toMemory = request::rest) (hg : Resourced mcfg w .attendKernel)
    (h : attendKernel mcfg w.memory request = some (memory, answer)) (page segment : ℤ) :
    getFrameNumberRAM memory pcb page segment = getFrameNumberRAM w.memory pcb page segment := by
  have hlive := running_live hw hthread
  obtain ⟨held, hheld, ht⟩ := hw.tenants
  simp only [Resourced, hq] at hg
  cases request with
  | initProcessStructuresMemory p =>
    have hne := running_elsewhere (away_init hw.sound ht.ended hq) hthread
    have hnew : w.live p.processId = none := by
      by_contra hlive
      exact ht.fresh p (by simp [hq]) ((hheld _).mpr hlive)
    obtain ⟨built, m', hinit, hext, haccounts⟩ := init_served valid hw.accounts p hnew hg
    obtain ⟨rfl, -⟩ : m' = memory ∧ some (KernelResponse.initProcessStructuresMemoryResponse
        { p with segmentTable := built }) = answer := by
      simpa [attendKernel, hinit] using h
    exact frames_of_rows hw.accounts.holdings haccounts.holdings hlive
      (Function.update_of_ne hne _ _)
      (fun r ho => hext.old r (owns_lt hw.accounts.holdings ho)) page segment
  | requestPageFault p faultSegment faultPage =>
    have hne := running_elsewhere (away_fault hw.sound ht.ended hq) hthread
    have hasking : Asking cfg.cpu w.memory w.live w.faults p faultSegment faultPage :=
      hw.trail.toMemory (.requestPageFault p faultSegment faultPage) (by simp [hq])
    obtain ⟨hasks, f, -, hunanswered⟩ := hasking
    obtain ⟨v, x, hrequestable⟩ :=
      requestable_of_frame hw.accounts.holdings hasks hunanswered.frame
    obtain ⟨m', n, m₂, k, k₂, hserve, -, hserved⟩ :=
      page_fault_served valid hw.accounts hrequestable hg
    obtain ⟨rfl, -⟩ : m' = memory ∧ some (KernelResponse.responsePageFault p) = answer := by
      simpa [attendKernel, hserve] using h
    exact frames_of_rows hw.accounts.holdings (served_accounts hw.accounts hserved).holdings hlive
      rfl (fun r ho => served_other_row hw.accounts hserved hne ho) page segment
  | endStructures p =>
    obtain ⟨hdelete, -⟩ := attend_end_some h
    obtain ⟨bits, slots, -, rfl⟩ := delete_process_some hdelete
    rfl

end Frames

section Steps
variable {cfg : KernelConfig} {mcfg : MemoryConfig} {c c' : Connected} {move : Move}

/-- No thread but the CPU's own changes what it executes or its registers. -/
theorem thread_cpu {s t : System} {e : Event} (he : isThread e = true)
    (h : step cfg s e = some t) :
    t.cpuThread = s.cpuThread ∧ t.cpu.registers = s.cpu.registers := by
  cases e with
  | connect instructions segments =>
    cases h
    exact ⟨rfl, rfl⟩
  | console i value =>
    obtain ⟨c, -, h⟩ := Option.bind_eq_some_iff.mp h
    obtain ⟨_, _, _, _, _, rfl⟩ := consola_frame h
    exact ⟨rfl, rfl⟩
  | receiveConsole i =>
    obtain ⟨c, -, h⟩ := Option.bind_eq_some_iff.mp h
    obtain ⟨_, _, _, _, _, _, _, _, _, _, _, _, rfl⟩ := receive_console_frame h
    exact ⟨rfl, rfl⟩
  | scheduleNextToRunning =>
    obtain ⟨_, _, _, _, _, _, _, _, _, _, _, rfl⟩ := schedule_next_to_running_frame h
    exact ⟨rfl, rfl⟩
  | manageDispatch =>
    obtain ⟨_, _, _, _, _, _, _, _, _, _, _, _, _, _, _, _, rfl⟩ := manage_dispatch_frame h
    exact ⟨rfl, rfl⟩
  | manageInterrupt =>
    obtain ⟨_, _, _, _, rfl⟩ := manage_interrupt_frame h
    exact ⟨rfl, rfl⟩
  | countQuantum expired =>
    obtain ⟨_, _, _, _, _, _, rfl⟩ := count_quantum_frame h
    exact ⟨rfl, rfl⟩
  | manageMemory =>
    obtain ⟨_, _, _, _, _, _, _, _, rfl⟩ := manage_memory_frame h
    exact ⟨rfl, rfl⟩
  | resolvePageFault i =>
    obtain ⟨p, -, h⟩ := Option.bind_eq_some_iff.mp h
    obtain ⟨_, _, _, rfl⟩ := resolve_page_fault_frame h
    exact ⟨rfl, rfl⟩
  | simulateIo i =>
    obtain ⟨d, -, h⟩ := Option.bind_eq_some_iff.mp h
    obtain ⟨_, _, _, _, rfl⟩ := simulate_io_default_frame h
    exact ⟨rfl, rfl⟩
  | processInterrupt =>
    obtain ⟨_, _, -, rfl⟩ := process_interrupt_cases h
    exact ⟨rfl, rfl⟩
  | processDispatch answers | memoria segments => simp [isThread] at he

theorem frame_request_some (h : connectedStep cfg mcfg c .frameRequest = some c') :
    ∃ pcb segment page answer, runningPcb c.machine.system.cpuThread = some pcb ∧
      nextPage cfg.cpu pcb = some (segment, page) ∧
      attendCpu mcfg c.machine.memory (.frameRequest pcb page segment) =
        some (c.machine.memory, answer) ∧ c' = ⟨c.machine, some answer⟩ := by
  simp only [connectedStep, Option.ite_none_right_eq_some, Option.bind_eq_bind,
    Option.bind_eq_some_iff, Option.some.injEq] at h
  obtain ⟨-, pcb, hpcb, ⟨segment, page⟩, hpage, ⟨memory, answer⟩, hserved, rfl⟩ := h
  have hsame : memory = c.machine.memory := by
    simp only [attendCpu, Option.bind_eq_bind, Option.bind_eq_some_iff] at hserved
    obtain ⟨frame, -, hserved⟩ := hserved
    split at hserved <;> simp_all
  subst hsame
  exact ⟨pcb, segment, page, answer, hpcb, hpage, hserved, rfl⟩

theorem connected_coherent (valid : ValidConfig mcfg) (hw : Coherent cfg mcfg c.machine)
    (hc : Asked cfg.cpu mcfg c) (hg : Sheltered cfg mcfg c move)
    (h : connectedStep cfg mcfg c move = some c') : Coherent cfg mcfg c'.machine := by
  cases move with
  | thread e =>
    obtain ⟨w, hact, rfl⟩ := Option.map_eq_some_iff.mp h
    exact act_coherent valid hw (by trivial) hact
  | attendKernel =>
    obtain ⟨w, hact, rfl⟩ := Option.map_eq_some_iff.mp h
    exact act_coherent valid hw (a := .attendKernel) hg hact
  | frameRequest =>
    obtain ⟨_, _, _, _, -, -, -, rfl⟩ := frame_request_some h
    exact hw
  | processDispatch times =>
    obtain ⟨value, t, memory, -, hact, rfl, ⟨-, rfl⟩ | ⟨request, -, hserved⟩⟩ := turn_acts hc h
    · exact act_coherent valid hw (by trivial) hact
    · exact act_coherent valid (act_coherent valid hw (by trivial) hact) (a := .attendCpu request)
        (by trivial) (by simp [act, hserved])

theorem connected_asked (valid : ValidConfig mcfg) (hw : Coherent cfg mcfg c.machine)
    (hc : Asked cfg.cpu mcfg c) (hg : Sheltered cfg mcfg c move)
    (h : connectedStep cfg mcfg c move = some c') : Asked cfg.cpu mcfg c' := by
  cases move with
  | thread e =>
    obtain ⟨w, hact, rfl⟩ := Option.map_eq_some_iff.mp h
    simp only [act, Option.ite_none_right_eq_some, Option.map_eq_some_iff] at hact
    obtain ⟨he, t, ht, rfl⟩ := hact
    intro answer hanswer
    obtain ⟨pcb, hpcb, rfl⟩ := hc answer hanswer
    exact ⟨pcb, (thread_cpu he ht).1 ▸ hpcb, rfl⟩
  | attendKernel =>
    obtain ⟨w, hact, rfl⟩ := Option.map_eq_some_iff.mp h
    intro answer hanswer
    obtain ⟨pcb, hpcb, rfl⟩ := hc answer hanswer
    obtain ⟨dispatch, hthread⟩ : ∃ dispatch, c.machine.system.cpuThread = .running dispatch pcb := by
      cases hthread : c.machine.system.cpuThread <;> simp [runningPcb, hthread] at hpcb
      exact ⟨_, by rw [hpcb]⟩
    obtain ⟨_, _, ha, -⟩ | ⟨request, rest, memory, response, -, hq, hserved, rfl⟩ |
      ⟨_, _, _, ha, -⟩ | ⟨_, _, _, ha, -⟩ := act_cases hact
    case inr.inl =>
      exact ⟨pcb, hpcb, (frame_answer_same (served_frames valid hw hthread hq hg hserved)).symm⟩
    all_goals cases ha
  | frameRequest =>
    obtain ⟨pcb, segment, page, answer, hpcb, hpage, hserved, rfl⟩ := frame_request_some h
    intro answer' hanswer
    obtain rfl := Option.some.inj hanswer
    exact ⟨pcb, hpcb, by simp [frameAnswer, hpage, hserved]⟩
  | processDispatch times =>
    obtain ⟨_, _, _, -, -, rfl, -⟩ := turn_acts hc h
    intro answer hanswer
    cases hanswer

end Steps

end Geck.CpuConnection
