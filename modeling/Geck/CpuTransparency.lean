import Geck.LabelledRuns
import Geck.CpuEffects

/-!
# A process does not see that it was taken off the CPU

A driver runs one process: the turns of `execute_process`, with interruptions
and memory's answers from outside, and the dispatches after an interruption or
a page fault, which find the registers, the TLB and the device as other
processes left them. Every such run follows the program, which knows nothing
of turns and dispatches, and so does the run that is never cut.
-/

set_option autoImplicit false

namespace Geck.CpuTransparency
open Geck.LabelledRuns Geck.SharedPcb Geck.MemoryHandlers Geck.CpuTranslation Geck.CpuExecution
open Geck.CpuEffects

/-- A completed instruction and its access to memory. -/
structure Completed where
  programCounter : ℤ
  instruction : List String
  access : Option LogicalAccess
  deriving DecidableEq, Repr

def stores (trace : List Completed) : List (LogicalAddressParameters × UInt32) :=
  trace.filterMap fun c => match c.access with
    | some (.store params value) => some (params, value)
    | _ => none

/-- What memory holds for the process, given its completed stores. -/
abbrev Recall := List (LogicalAddressParameters × UInt32) → LogicalAddressParameters → UInt32

inductive Phase where
  | running
  | returned (package : CpuPackage)
  deriving DecidableEq, Repr

structure Driver where
  cpu : Cpu
  pcb : Pcb
  phase : Phase
  trace : List Completed

/-- A turn of the loop, with the interruption arriving before its test or not,
or a dispatch to a CPU that other processes left as `left`. -/
inductive Event where
  | turn (interruption : Bool) (answers : Answers)
  | dispatch (left : Cpu)

def interrupted (cpu : Cpu) (interruption : Bool) : Cpu :=
  if interruption then { cpu with checkInterruption := true } else cpu

/-- The driver after an instruction; one that faulted is not completed. -/
def executed (d : Driver) (instruction : List String) (cpu : Cpu) (pcb : Pcb)
    (access : Option Access) : Driver where
  cpu := cpu
  pcb := pcb
  phase := .running
  trace := if cpu.pageFault then d.trace else
    d.trace++[⟨d.pcb.programCounter, instruction, access.map logicalAccess⟩]

def driverStep (cfg : CpuConfig) (d : Driver) : Event → Option Driver
  | .turn interruption answers =>
    match d.phase with
    | .returned _ => none
    | .running =>
      let cpu := interrupted d.cpu interruption
      if keepsRunning cpu then do
        let line ← fetchNextInstructionToExecute d.pcb
        let (cpu, pcb, access) ← instructionCycle cfg answers cpu d.pcb
        some (executed d (decode cfg line) cpu pcb access)
      else do
        let pcb := saveContextPcb cpu d.pcb
        let (cpu, package) := leaveProcess cpu pcb
        let package ← package
        some { d with cpu := cpu, pcb := pcb, phase := .returned package }
  | .dispatch left =>
    match d.phase with
    | .returned (.executeInterruption pcb) =>
      some { d with cpu := setRegisters left pcb, pcb := pcb, phase := .running }
    | .returned (.pageFault pcb _ _) =>
      some { d with cpu := setRegisters left pcb, pcb := pcb, phase := .running }
    | _ => none

/-- The driver after the first dispatch. -/
def dispatched (left : Cpu) (pcb : Pcb) : Driver := ⟨setRegisters left pcb, pcb, .running, []⟩

/-- A CPU between two processes: an interruption may be pending. -/
structure Idle (cfg : CpuConfig) (left : Cpu) : Prop where
  clear : Raised left none
  fault : left.pageFault = false
  tlb : Plausible cfg left.tlb

/-- The next instruction addresses no memory below the process. -/
def WellAddressed (cfg : CpuConfig) (pcb : Pcb) : Prop :=
  ∀ line, fetchNextInstructionToExecute pcb = some line →
    ∀ a, movAddress (decode cfg line) = some a → 0 ≤ a

/-- A turn that executes an instruction finds its operands' addresses in the
process and memory answers it truthfully; dispatches find an idle CPU. -/
def Legal (cfg : CpuConfig) (recalled : Recall) (d : Driver) : Event → Prop
  | .turn interruption answers => keepsRunning (interrupted d.cpu interruption) = true →
      WellAddressed cfg d.pcb ∧ ∀ line, fetchNextInstructionToExecute d.pcb = some line →
        Truthful cfg (recalled (stores d.trace)) d.pcb (decode cfg line) answers
  | .dispatch left => Idle cfg left

instance (cfg : CpuConfig) (pcb : Pcb) : Decidable (WellAddressed cfg pcb) :=
  decidable_of_iff (((fetchNextInstructionToExecute pcb).bind fun line =>
    movAddress (decode cfg line)).all (fun a => decide (0 ≤ a))) (by
      simp only [Option.all_eq_true, Option.bind_eq_some_iff, decide_eq_true_eq, WellAddressed]
      exact ⟨fun h line hl a ha => h a ⟨line, hl, ha⟩, fun h a ⟨line, hl, ha⟩ => h line hl a ha⟩)

def answersFrame : CpuResponse → Bool
  | .frameResponse f => decide (0 ≤ f)
  | .pageFault f => decide (f = -1)
  | _ => false

instance (cfg : CpuConfig) (recalled : LogicalAddressParameters → UInt32) (pcb : Pcb)
    (instruction : List String) (answers : Answers) :
    Decidable (Truthful cfg recalled pcb instruction answers) :=
  decidable_of_iff (answersFrame answers.frame = true ∧
    ((instruction[0]?).map keyfromstring = some .movIn →
      ((movAddress instruction).bind fun a => translateLogicalAddress cfg a pcb).all
        (fun t => t.2 || decide (answers.value = .movInOk (recalled t.1))) = true)) (by
      constructor
      · rintro ⟨hf, hv⟩
        refine ⟨?_, fun a params ha ht hk => ?_⟩
        · cases h : answers.frame <;> simp_all [answersFrame]
        · simpa [ha, ht] using hv hk
      · rintro ⟨hf, hv⟩
        refine ⟨?_, fun hk => ?_⟩
        · obtain ⟨f, hf, h0⟩ | hf := hf <;> simp_all [answersFrame]
        · rw [Option.all_eq_true]
          rintro ⟨params, outside⟩ ht
          obtain ⟨a, ha, ht⟩ := Option.bind_eq_some_iff.mp ht
          cases outside with
          | true => rfl
          | false => simp [hv a params ha ht hk])

instance (cfg : CpuConfig) (recalled : Recall) (d : Driver) : ∀ e, Decidable (Legal cfg recalled d e)
  | .turn interruption answers =>
    decidable_of_iff (keepsRunning (interrupted d.cpu interruption) = true →
      WellAddressed cfg d.pcb ∧ (fetchNextInstructionToExecute d.pcb).all (fun line => decide
        (Truthful cfg (recalled (stores d.trace)) d.pcb (decode cfg line) answers)) = true) (by
        simp only [Option.all_eq_true, decide_eq_true_eq, Legal])
  | .dispatch left =>
    decidable_of_iff ((left.endProcess = false ∧ left.inputOuput = false ∧ left.sigsegv = false) ∧
      left.pageFault = false ∧ cfg.entradasTlb ≤ left.tlb.length ∧
      ∀ row ∈ left.tlb, -1 ≤ row.frame)
      ⟨fun h => ⟨h.1, h.2.1, h.2.2.1, h.2.2.2⟩,
        fun h => ⟨h.clear, h.fault, h.tlb.size, h.tlb.frames⟩⟩

/-- A turn without interruption and without page fault. -/
def Quiet : Event → Prop
  | .turn interruption answers => interruption = false ∧ ∃ f, answers.frame = .frameResponse f
  | .dispatch _ => False

/-- The context that the process has, or had when it left the CPU. -/
def context (d : Driver) : Pcb :=
  match d.phase with
  | .running => saveContextPcb d.cpu d.pcb
  | .returned _ => d.pcb

/-- The process has sent its last message: it ended or asked for a device. -/
def Finished (d : Driver) : Prop := ∃ pcb stop, d.phase = .returned (finalPackage pcb stop)

/-- The program: its context, its completed instructions and why it stopped. -/
structure Program where
  pcb : Pcb
  trace : List Completed
  stop : Option Stop

def completed (r : Program) (instruction : List String) (eff : Effect) : Program where
  pcb := { updateProgramCounter r.pcb with cpuRegisters := eff.registers }
  trace := r.trace++[⟨r.pcb.programCounter, instruction, eff.access⟩]
  stop := eff.stop

def programStep (cfg : CpuConfig) (recalled : Recall) (r : Program) : Option Program :=
  match r.stop with
  | some _ => none
  | none => do
    let line ← fetchNextInstructionToExecute r.pcb
    let eff ← effect cfg (recalled (stores r.trace)) r.pcb.cpuRegisters r.pcb (decode cfg line)
    some (completed r (decode cfg line) eff)

def Next (cfg : CpuConfig) (recalled : Recall) (r r' : Program) : Prop :=
  programStep cfg recalled r = some r' ∧ WellAddressed cfg r.pcb

/-- The driver stands where the program stands. -/
structure Follows (cfg : CpuConfig) (d : Driver) (r : Program) : Prop where
  trace : d.trace = r.trace
  context : context d = r.pcb
  running : d.phase = .running → Raised d.cpu r.stop ∧ Plausible cfg d.cpu.tlb
  returned : ∀ package, d.phase = .returned package → match r.stop with
    | none => package = .executeInterruption r.pcb ∨ ∃ s p, package = .pageFault r.pcb s p
    | some stop => package = finalPackage r.pcb stop

theorem interrupted_same (cpu : Cpu) (interruption : Bool) (stop : Option Stop)
    (h : Raised cpu stop) : Raised (interrupted cpu interruption) stop ∧
      (interrupted cpu interruption).registers = cpu.registers ∧
      (interrupted cpu interruption).tlb = cpu.tlb := by
  unfold interrupted
  split
  · refine ⟨?_, rfl, rfl⟩
    cases stop with
    | none => exact h
    | some st => cases st <;> exact h
  · exact ⟨h, rfl, rfl⟩

theorem finished_stop {cfg : CpuConfig} {d : Driver} {r : Program} (hf : Follows cfg d r)
    (h : Finished d) : ∃ stop, r.stop = some stop := by
  obtain ⟨pcb, st, hp⟩ := h
  cases hs : r.stop with
  | some stop => exact ⟨stop, rfl⟩
  | none =>
    have := hf.returned _ hp
    rw [hs] at this
    cases st with
    | endProcess => simp [finalPackage] at this
    | sigsegv => simp [finalPackage] at this
    | inputOuput device parameter =>
      simp only [finalPackage, sendPcbIoPackage] at this
      split at this
      · simp at this
      · split at this <;> simp at this

section Steps
variable {cfg : CpuConfig} (hsort : Sorts cfg) (recalled : Recall) {d : Driver} {r : Program}
  (hf : Follows cfg d r) (hrun : d.phase = .running)
include hf hrun

/-- A turn that executes an instruction: it faults and the program stands
still, or it completes and the program takes one step. -/
theorem turn_executes {interruption : Bool} {answers : Answers}
    (hkeep : keepsRunning (interrupted d.cpu interruption) = true)
    (hl : Legal cfg recalled d (.turn interruption answers)) (hsort : Sorts cfg) :
    (programStep cfg recalled r = none ∧ driverStep cfg d (.turn interruption answers) = none) ∨
    ∃ r' d', programStep cfg recalled r = some r' ∧
      driverStep cfg d (.turn interruption answers) = some d' ∧
      d'.phase = .running ∧
      d'.cpu.checkInterruption = (interrupted d.cpu interruption).checkInterruption ∧
      ((answers.frame = .pageFault (-1) ∧ Follows cfg d' r) ∨
        (d'.cpu.pageFault = false ∧ Follows cfg d' r')) := by
  obtain ⟨hraised, hp⟩ := hf.running hrun
  obtain ⟨hraised', hregs, htlb⟩ := interrupted_same d.cpu interruption r.stop hraised
  obtain ⟨hstop, hclear, hfault⟩ := running_clear hraised' hkeep
  have hctx : r.pcb = saveContextPcb d.cpu d.pcb := by
    rw [← hf.context]
    simp [CpuTransparency.context, hrun]
  have hfetch : fetchNextInstructionToExecute r.pcb = fetchNextInstructionToExecute d.pcb := by
    rw [hctx]
    rfl
  cases hline : fetchNextInstructionToExecute d.pcb with
  | none =>
    left
    simp [programStep, hstop, hfetch, hline, driverStep, hrun, hkeep]
  | some line =>
  have htruth := (hl hkeep).2 line hline
  have h0 := (hl hkeep).1 line hline
  have heffect : effect cfg (recalled (stores r.trace)) r.pcb.cpuRegisters r.pcb (decode cfg line) =
      effect cfg (recalled (stores d.trace)) (interrupted d.cpu interruption).registers d.pcb
        (decode cfg line) := by
    rw [hregs, hf.trace, hctx]
    rfl
  obtain ⟨hnone, hexec⟩ | ⟨eff, cpu', access, hsome, hexec, hp', hcheck, hout⟩ :=
    execute_instruction_effect hsort (recalled (stores d.trace)) (interrupted d.cpu interruption)
      d.pcb (decode cfg line) answers (htlb ▸ hp) hclear hfault h0 htruth
  · left
    simp [programStep, hstop, hfetch, hline, heffect, hnone, driverStep, hrun, hkeep,
      instructionCycle, hexec]
  · right
    refine ⟨completed r (decode cfg line) eff, executed d (decode cfg line) cpu'
      (if cpu'.pageFault then d.pcb else updateProgramCounter d.pcb) access,
      by simp [programStep, hstop, hfetch, hline, heffect, hsome],
      by simp [driverStep, hrun, hkeep, hline, instructionCycle, hexec], rfl, hcheck, ?_⟩
    cases hout with
    | faults asked fault clear registers =>
      left
      refine ⟨asked, by simp [executed, fault, hf.trace], ?_, fun _ => ⟨hstop ▸ clear, hp'⟩,
        by simp [executed]⟩
      simp [CpuTransparency.context, executed, fault, hctx, saveContextPcb, registers, hregs]
    | completes access fault raised registers same =>
      right
      refine ⟨fault, ?_, ?_, fun _ => ⟨raised, hp'⟩, by simp [executed]⟩
      · have hpc : r.pcb.programCounter = d.pcb.programCounter := by
          rw [hctx]
          rfl
        simp [executed, completed, fault, hf.trace, same, hpc]
      · simp [CpuTransparency.context, executed, completed, fault, hctx, saveContextPcb, registers,
          updateProgramCounter]

/-- The turn that leaves the loop. -/
theorem turn_leaves {interruption : Bool} (answers : Answers)
    (hkeep : keepsRunning (interrupted d.cpu interruption) = false) :
    ∃ d' package, driverStep cfg d (.turn interruption answers) = some d' ∧
      d'.phase = .returned package ∧ Follows cfg d' r := by
  obtain ⟨hraised, _⟩ := hf.running hrun
  obtain ⟨hraised', hregs, _⟩ := interrupted_same d.cpu interruption r.stop hraised
  have hctx : saveContextPcb (interrupted d.cpu interruption) d.pcb = r.pcb := by
    rw [← hf.context]
    simp [CpuTransparency.context, hrun, saveContextPcb, hregs]
  have hleave := leave_process_sends (interrupted d.cpu interruption) r.pcb r.stop hraised' hkeep
  refine ⟨{ d with
      cpu := lowered (interrupted d.cpu interruption)
      pcb := r.pcb
      phase := .returned (packageFor (interrupted d.cpu interruption) r.pcb r.stop) }, _,
    by simp [driverStep, hrun, hkeep, hctx, hleave], rfl, hf.trace, rfl, by simp, ?_⟩
  intro package hpackage
  obtain rfl : packageFor (interrupted d.cpu interruption) r.pcb r.stop = package := by
    simpa using hpackage
  cases r.stop with
  | some stop => rfl
  | none =>
    simp only [packageFor, returnedPackage]
    split
    · exact Or.inr ⟨_, _, rfl⟩
    · exact Or.inl rfl

end Steps

/-- Every step of a driver is matched by at most one step of the program. -/
theorem driver_step_follows {cfg : CpuConfig} (hsort : Sorts cfg) (recalled : Recall) (d : Driver)
    (e : Event) (d' : Driver) (r : Program) (hf : Follows cfg d r) (hl : Legal cfg recalled d e)
    (h : driverStep cfg d e = some d') :
    ∃ r', Relation.ReflTransGen (Next cfg recalled) r r' ∧ Follows cfg d' r' := by
  cases e with
  | turn interruption answers =>
    cases hrun : d.phase with
    | returned package => simp [driverStep, hrun] at h
    | running =>
    cases hkeep : keepsRunning (interrupted d.cpu interruption) with
    | false =>
      obtain ⟨d'', package, hd'', _, hf'⟩ := turn_leaves hf hrun answers hkeep
      obtain rfl := Option.some.inj (hd''.symm.trans h)
      exact ⟨r, .refl, hf'⟩
    | true =>
      obtain ⟨_, hnone⟩ | ⟨r', d'', hr', hd'', _, _, ⟨_, hf'⟩ | ⟨_, hf'⟩⟩ :=
        turn_executes recalled hf hrun hkeep hl hsort
      · simp [hnone] at h
      · obtain rfl := Option.some.inj (hd''.symm.trans h)
        exact ⟨r, .refl, hf'⟩
      · obtain rfl := Option.some.inj (hd''.symm.trans h)
        have hctx : r.pcb = saveContextPcb d.cpu d.pcb := by
          rw [← hf.context]
          simp [context, hrun]
        exact ⟨r', .single ⟨hr', hctx ▸ (hl hkeep).1⟩, hf'⟩
  | dispatch left =>
    -- the context comes back in the package, so only the registers are loaded
    have hback : ∀ pcb package, d.phase = .returned package →
        (package = .executeInterruption pcb ∨ ∃ s p, package = .pageFault pcb s p) →
        r.stop = none ∧ r.pcb = pcb := by
      intro pcb package hp hkind
      have := hf.returned package hp
      cases hs : r.stop with
      | none =>
        rw [hs] at this
        obtain rfl | ⟨s, p, rfl⟩ := hkind <;> simpa [eq_comm] using this
      | some stop =>
        rw [hs] at this
        obtain ⟨st, hst⟩ : ∃ st, r.stop = some st := ⟨stop, hs⟩
        subst this
        cases stop with
        | endProcess => simp [finalPackage] at hkind
        | sigsegv => simp [finalPackage] at hkind
        | inputOuput device parameter =>
          simp only [finalPackage, sendPcbIoPackage] at hkind
          split at hkind
          · simp at hkind
          · split at hkind <;> simp at hkind
    have hload : ∀ pcb, r.stop = none → r.pcb = pcb →
        Follows cfg { d with cpu := setRegisters left pcb, pcb := pcb, phase := .running } r := by
      rintro pcb hs rfl
      refine ⟨hf.trace, rfl, fun _ => ⟨hs ▸ hl.clear, hl.tlb⟩, by simp⟩
    refine ⟨r, .refl, ?_⟩
    simp only [driverStep] at h
    split at h
    · rename_i pcb hp
      obtain rfl := Option.some.inj h
      obtain ⟨hs, he⟩ := hback pcb _ hp (Or.inl rfl)
      exact hload pcb hs he
    · rename_i pcb s p hp
      obtain rfl := Option.some.inj h
      obtain ⟨hs, he⟩ := hback pcb _ hp (Or.inr ⟨s, p, rfl⟩)
      exact hload pcb hs he
    · simp at h

/-- Answers without a fault that are true for the next instruction. -/
def quietAnswers (cfg : CpuConfig) (recalled : Recall) (d : Driver) : Answers where
  frame := .frameResponse 0
  value := match (do
      let line ← fetchNextInstructionToExecute d.pcb
      let a ← movAddress (decode cfg line)
      translateLogicalAddress cfg a d.pcb : Option (LogicalAddressParameters × Bool)) with
    | some (params, _) => .movInOk (recalled (stores d.trace) params)
    | none => .movInOk 0
  times := ⟨⟨0, 0⟩, ⟨0, 0⟩⟩

theorem quiet_truthful (cfg : CpuConfig) (recalled : Recall) (d : Driver) (line : String)
    (hline : fetchNextInstructionToExecute d.pcb = some line) :
    Truthful cfg (recalled (stores d.trace)) d.pcb (decode cfg line)
      (quietAnswers cfg recalled d) := by
  refine ⟨Or.inl ⟨0, rfl, le_rfl⟩, fun a params ha ht _ => ?_⟩
  simp [quietAnswers, hline, ha, ht]

/-- A driver in the middle of an uncut run. -/
structure Uncut (cfg : CpuConfig) (d : Driver) (r : Program) : Prop where
  follows : Follows cfg d r
  running : d.phase = .running
  check : d.cpu.checkInterruption = false
  fault : d.cpu.pageFault = false

theorem uncut_step {cfg : CpuConfig} (hsort : Sorts cfg) (recalled : Recall) {d : Driver}
    {r r' : Program} (hu : Uncut cfg d r) (h : Next cfg recalled r r') :
    ∃ d', driverStep cfg d (.turn false (quietAnswers cfg recalled d)) = some d' ∧
      Legal cfg recalled d (.turn false (quietAnswers cfg recalled d)) ∧ Uncut cfg d' r' := by
  have hctx : r.pcb = saveContextPcb d.cpu d.pcb := by
    rw [← hu.follows.context]
    simp [context, hu.running]
  have hstop : r.stop = none := by
    cases hs : r.stop with
    | none => rfl
    | some st => simp [Next, programStep, hs] at h
  obtain ⟨hraised, _⟩ := hu.follows.running hu.running
  rw [hstop] at hraised
  obtain ⟨hend, hio, hseg⟩ := hraised
  have hkeep : keepsRunning (interrupted d.cpu false) = true := by
    simp [interrupted, keepsRunning, hu.check, hu.fault, hend, hio, hseg]
  have hwell : WellAddressed cfg (saveContextPcb d.cpu d.pcb) := hctx ▸ h.2
  have hlegal : Legal cfg recalled d (.turn false (quietAnswers cfg recalled d)) :=
    fun _ => ⟨hwell, fun line hline => quiet_truthful cfg recalled d line hline⟩
  obtain ⟨hnone, _⟩ | ⟨r'', d', hr'', hd', hrun', hcheck, ⟨hasked, _⟩ | ⟨hfault, hf'⟩⟩ :=
    turn_executes recalled hu.follows hu.running hkeep hlegal hsort
  · simp [Next, hnone] at h
  · simp [quietAnswers] at hasked
  · obtain rfl := Option.some.inj (hr''.symm.trans h.1)
    exact ⟨d', hd', hlegal, hf', hrun', hcheck.trans hu.check, hfault⟩

/-- Whatever a program reaches, an uncut run of the driver reaches. -/
theorem uncut_run {cfg : CpuConfig} (hsort : Sorts cfg) (recalled : Recall) {r r' : Program}
    (h : Relation.ReflTransGen (Next cfg recalled) r r') (d : Driver) (hu : Uncut cfg d r) :
    ∃ events d', (∀ e ∈ events, Quiet e) ∧
      Guarded (driverStep cfg) (Legal cfg recalled) d events ∧
      run (driverStep cfg) d events = some d' ∧ Uncut cfg d' r' := by
  induction h using Relation.ReflTransGen.head_induction_on generalizing d with
  | refl => exact ⟨[], d, by simp, trivial, rfl, hu⟩
  | head hstep _ ih =>
    obtain ⟨d₁, hd₁, hl, hu₁⟩ := uncut_step hsort recalled hu hstep
    obtain ⟨events, d', hq, hg, hr, hu'⟩ := ih d₁ hu₁
    refine ⟨.turn false (quietAnswers cfg recalled d)::events, d', ?_, ⟨hl, ?_⟩, ?_, hu'⟩
    · intro e he
      obtain rfl | he := List.mem_cons.mp he
      · exact ⟨rfl, 0, rfl⟩
      · exact hq e he
    · intro t ht
      obtain rfl := Option.some.inj (hd₁.symm.trans ht)
      exact hg
    · rw [run_cons _ _ hd₁, hr]

theorem uncut_finishes {cfg : CpuConfig} (recalled : Recall) {d : Driver} {r : Program} {st : Stop}
    (hu : Uncut cfg d r) (hs : r.stop = some st) :
    ∃ d', driverStep cfg d (.turn false (quietAnswers cfg recalled d)) = some d' ∧
      Legal cfg recalled d (.turn false (quietAnswers cfg recalled d)) ∧
      d'.phase = .returned (finalPackage r.pcb st) ∧ Follows cfg d' r := by
  have hraised := (hu.follows.running hu.running).1
  rw [hs] at hraised
  have hkeep : keepsRunning (interrupted d.cpu false) = false := raised_keeps_running hraised
  obtain ⟨d', package, hd', hp, hf'⟩ :=
    turn_leaves hu.follows hu.running (quietAnswers cfg recalled d) hkeep
  refine ⟨d', hd', fun hk => by simp [hkeep] at hk, ?_, hf'⟩
  have hpackage := hf'.returned package hp
  rw [hs] at hpackage
  rw [hp, hpackage]

theorem dispatched_follows {cfg : CpuConfig} {left : Cpu} (hi : Idle cfg left) (pcb : Pcb) :
    Follows cfg (dispatched left pcb) ⟨pcb, [], none⟩ :=
  ⟨rfl, rfl, fun _ => ⟨hi.clear, hi.tlb⟩, by simp [dispatched]⟩

theorem finished_phase {cfg : CpuConfig} {d : Driver} {r : Program} {st : Stop}
    (hf : Follows cfg d r) (h : Finished d) (hs : r.stop = some st) :
    d.phase = .returned (finalPackage r.pcb st) := by
  obtain ⟨pcb, stop, hp⟩ := h
  have := hf.returned _ hp
  rw [hs] at this
  rw [hp, this]

/-- A program that is interrupted anywhere and faults any number of times
completes the same instructions with the same loads and stores, in the same
context, as in a run that is never cut; and when it finishes, every other run
of it that finishes sends the same last message with the same context. -/
theorem preemption_transparent (cfg : CpuConfig) (hsort : Sorts cfg) (recalled : Recall) (pcb : Pcb)
    (left : Cpu) (hleft : Idle cfg left) (events : List Event) (d : Driver)
    (hl : Guarded (driverStep cfg) (Legal cfg recalled) (dispatched left pcb) events)
    (hd : run (driverStep cfg) (dispatched left pcb) events = some d) :
    (∃ uncut d', (∀ e ∈ uncut, Quiet e) ∧
      Guarded (driverStep cfg) (Legal cfg recalled)
        (dispatched { left with checkInterruption := false } pcb) uncut ∧
      run (driverStep cfg) (dispatched { left with checkInterruption := false } pcb) uncut =
        some d' ∧
      d'.trace = d.trace ∧ context d' = context d ∧ (Finished d → d'.phase = d.phase)) ∧
    ∀ left' events' d', Idle cfg left' →
      Guarded (driverStep cfg) (Legal cfg recalled) (dispatched left' pcb) events' →
      run (driverStep cfg) (dispatched left' pcb) events' = some d' → Finished d → Finished d' →
      d'.trace = d.trace ∧ context d' = context d ∧ d'.phase = d.phase := by
  have follow {left : Cpu} (hi : Idle cfg left) {events : List Event} {d : Driver}
      (hl : Guarded (driverStep cfg) (Legal cfg recalled) (dispatched left pcb) events)
      (hd : run (driverStep cfg) (dispatched left pcb) events = some d) :=
    guarded_simulation (driverStep cfg) (Follows cfg) (Next cfg recalled) (Legal cfg recalled)
      (fun d e d' r => driver_step_follows hsort recalled d e d' r) events _ d _
      (dispatched_follows hi pcb) hl hd
  obtain ⟨r, hreach, hf⟩ := follow hleft hl hd
  refine ⟨?_, fun left' events' d' hleft' hl' hd' hfin hfin' => ?_⟩
  · have hquiet : Idle cfg { left with checkInterruption := false } :=
      ⟨hleft.clear, hleft.fault, hleft.tlb⟩
    obtain ⟨uncut, d₁, hq, hg, hr, hu⟩ := uncut_run hsort recalled hreach
      (dispatched { left with checkInterruption := false } pcb)
      ⟨dispatched_follows hquiet pcb, rfl, rfl, hleft.fault⟩
    by_cases hfin : Finished d
    · obtain ⟨st, hs⟩ := finished_stop hf hfin
      obtain ⟨d', hd', hl', hp, hf'⟩ := uncut_finishes recalled hu hs
      refine ⟨uncut++[.turn false (quietAnswers cfg recalled d₁)], d', ?_, ?_, ?_,
        hf'.trace.trans hf.trace.symm, hf'.context.trans hf.context.symm, fun _ => ?_⟩
      · intro e he
        obtain he | he := List.mem_append.mp he
        · exact hq e he
        · obtain rfl := List.mem_singleton.mp he
          exact ⟨rfl, 0, rfl⟩
      · exact guarded_append _ _ _ hg hr ⟨hl', fun _ _ => trivial⟩
      · rw [run_append, hr]
        simp [run, hd']
      · rw [hp, finished_phase hf hfin hs]
    · exact ⟨uncut, d₁, hq, hg, hr, hu.follows.trace.trans hf.trace.symm,
        hu.follows.context.trans hf.context.symm, fun h => absurd h hfin⟩
  · obtain ⟨r', hreach', hf'⟩ := follow hleft' hl' hd'
    obtain ⟨st, hs⟩ := finished_stop hf hfin
    obtain ⟨st', hs'⟩ := finished_stop hf' hfin'
    have final {x : Program} {st : Stop} (hs : x.stop = some st) (c : Program) :
        ¬Next cfg recalled x c := by
      simp [Next, programStep, hs]
    have hdet : Relator.RightUnique (Next cfg recalled) := fun a b c hb hc =>
      Option.some.inj (hb.1.symm.trans hc.1)
    obtain rfl := final_unique hdet hreach' hreach (final hs') (final hs)
    exact ⟨hf'.trace.trans hf.trace.symm, hf'.context.trans hf.context.symm,
      (finished_phase hf' hfin' hs).trans (finished_phase hf hfin hs).symm⟩

def smallProgram : Pcb :=
  { pcbCreate ["MOV_IN AX 0", "EXIT"] 0 1 [] with
    segmentTable := [{ indexPage := 0, number := 0, size := 8 }] }

def idleCpu (left : Registers) : Cpu where
  registers := left
  endProcess := false
  inputOuput := false
  checkInterruption := false
  pageFault := false
  sigsegv := false
  device := "NONE"
  parameter := "NONE"
  numeroSegmentoGlobalPageFault := 0
  numeroPaginaGlobalPageFault := 0
  tlb := initTlb smallCpu midnight

theorem idle_cpu (left : Registers) : Idle smallCpu (idleCpu left) :=
  ⟨⟨rfl, rfl, rfl⟩, rfl, by simp [idleCpu, initTlb], by
    intro row hrow
    rw [(List.mem_replicate.mp hrow).2]
    decide⟩

def answered (frame : CpuResponse) : Answers := ⟨frame, .movInOk 7, ⟨midnight, midnight⟩⟩

/-- Interrupted before the load, which then faults once, and preempted after it. -/
def smallSchedule : List Event :=
  [.turn true (answered (.pageFault (-1))), .dispatch (idleCpu ⟨1, 2, 3, 4⟩),
    .turn false (answered (.pageFault (-1))), .turn false (answered (.pageFault (-1))),
    .dispatch (idleCpu ⟨5, 6, 7, 8⟩), .turn false (answered (.frameResponse 3)),
    .turn true (answered (.frameResponse 3)), .dispatch (idleCpu ⟨9, 9, 9, 9⟩),
    .turn false (answered (.frameResponse 3)), .turn false (answered (.frameResponse 3))]

def smallDriver : Driver :=
  reached (driverStep smallCpu) (dispatched (idleCpu ⟨0, 0, 0, 0⟩) smallProgram) smallSchedule

theorem preemption_transparent_small :
    ∃ uncut d', (∀ e ∈ uncut, Quiet e) ∧
      run (driverStep smallCpu) (dispatched (idleCpu ⟨0, 0, 0, 0⟩) smallProgram) uncut = some d' ∧
      d'.trace = smallDriver.trace ∧ d'.phase = smallDriver.phase := by
  have h := preemption_transparent smallCpu small_cpu_replaces.sorted (fun _ _ => 7) smallProgram
    (idleCpu ⟨0, 0, 0, 0⟩) (idle_cpu _) smallSchedule smallDriver (by decide +kernel)
    (run_reached _ _ _ (by decide +kernel))
  obtain ⟨uncut, d', hq, _, hr, ht, _, hp⟩ := h.1
  exact ⟨uncut, d', hq, hr, ht, hp ⟨smallDriver.pcb, .endProcess, by decide +kernel⟩⟩

end Geck.CpuTransparency
