import Geck.CpuTransparency
import Geck.RegisterFile

/-!
# The registers against a reference interpreter

The reference interpreter assigns in `SET`, adds modulo 2^32 in `ADD` and takes
the value memory has for an address in `MOV_IN`. It runs the program of the
process on memory's answers and knows nothing of the CPU's accesses. The CPU
follows it as long as no `SET` meets a register that holds something and no load
is taken for a page fault that memory did not answer.
-/

set_option autoImplicit false

namespace Geck.InstructionSet
open Geck.LabelledRuns Geck.BlockStore Geck.SharedPcb Geck.MemoryHandlers Geck.CpuTranslation
open Geck.CpuExecution Geck.CpuEffects Geck.CpuTransparency Geck.RegisterFile

/-- The value memory returns for a logical address, which is inside its segment. -/
def returnedFor (cfg : CpuConfig) (pcb : Pcb) (logicalAddress : ℤ) (response : CpuResponse) :
    Option UInt32 :=
  match translateLogicalAddress cfg logicalAddress pcb, response with
  | some (_, false), .movInOk value => some value
  | _, _ => none

/-- One instruction as specified. -/
def referenceInstruction (cfg : CpuConfig) (pcb : Pcb) (f : File) (instruction : List String)
    (response : CpuResponse) : File :=
  match instruction[0]?.map keyfromstring, instruction[1]?, instruction[2]? with
  | some .set, some register, some value =>
    assign f register (UInt32.ofInt (numeral value.toList))
  | some .add, some destination, some source =>
    match registerNamed destination, registerNamed source with
    | some d, some s => Function.update f d (f d+f s)
    | _, _ => f
  | some .movIn, some register, some logicalAddress =>
    match returnedFor cfg pcb (atoi logicalAddress) response with
    | some value => assign f register value
    | none => f
  | _, _, _ => f

def nextInstruction (cfg : CpuConfig) (pcb : Pcb) (pc : ℤ) : Option (List String) :=
  (listGet pcb.instructions pc).map (decode cfg)

/-- The reference interpreter from `pc` on, one instruction for each answer to a load. -/
def referenceFrom (cfg : CpuConfig) (pcb : Pcb) : ℤ → File → List CpuResponse → Option File
  | _, f, [] => some f
  | pc, f, response::rest => do
    let instruction ← nextInstruction cfg pcb pc
    referenceFrom cfg pcb (pc+1) (referenceInstruction cfg pcb f instruction response) rest

def reference (cfg : CpuConfig) (pcb : Pcb) (responses : List CpuResponse) : Option File :=
  referenceFrom cfg pcb pcb.programCounter (file pcb.cpuRegisters) responses

/-- A process, and what memory had for a load in each turn that executed an instruction. -/
structure Observed where
  driver : Driver
  responses : List CpuResponse

def isPageFault : CpuResponse → Bool
  | .pageFault _ => true
  | _ => false

/-- An instruction is executed again only if memory answered that its page is not there. -/
def responsesOf (d d' : Driver) : Event → List CpuResponse
  | .turn interruption answers =>
    if d.phase = .running ∧ keepsRunning (interrupted d.cpu interruption) = true ∧
      ¬(d'.cpu.pageFault = true ∧ isPageFault answers.frame = true) then [answers.value] else []
  | .dispatch _ => []

def observe (cfg : CpuConfig) (o : Observed) (e : Event) : Option Observed :=
  (driverStep cfg o.driver e).map fun d => ⟨d, o.responses++responsesOf o.driver d e⟩

def observed (left : Cpu) (pcb : Pcb) : Observed := ⟨dispatched left pcb, []⟩

/-- The registers that the process has, or would leave the CPU with. -/
def Agrees (cfg : CpuConfig) (pcb : Pcb) (o : Observed) : Prop :=
  reference cfg pcb o.responses = some (file (context o.driver).cpuRegisters)

/-- Memory sends -1 with a page fault. -/
def FaultsWithoutFrame : Event → Prop
  | .turn _ answers => ∀ f, answers.frame = .pageFault f → f = -1
  | .dispatch _ => True

/-- What `atoi` loses of a numeral that a 64-bit long does not hold. -/
def lost (value : String) : UInt32 :=
  UInt32.ofInt (numeral value.toList)-UInt32.ofInt (atoi value)

/-- The physical address of a load is -1 though its page is there: the CPU makes no access. -/
def skips (cfg : CpuConfig) (answers : Answers) (tlb : List RowTlb) (pcb : Pcb)
    (logicalAddress : ℤ) : Bool :=
  ((translateLogicalAddress cfg logicalAddress pcb).bind fun p =>
    buildPhysicalAddress cfg tlb (some answers.frame) answers.times p.1 pcb).any
      fun result => result.1 = -1 && !result.2.2

/-- The register of an instruction that the CPU does not execute as specified, and what it has to
hold for nobody to see. A `SET` adds, and a load may be skipped. -/
def misses (cfg : CpuConfig) (answers : Answers) (tlb : List RowTlb) (pcb : Pcb)
    (instruction : List String) : Option (Register × UInt32) :=
  match instruction[0]?.map keyfromstring, instruction[1]?, instruction[2]? with
  | some .set, some register, some value => (registerNamed register).map fun r => (r, lost value)
  | some .movIn, some register, some logicalAddress => do
    let r ← registerNamed register
    let value ← returnedFor cfg pcb (atoi logicalAddress) answers.value
    if skips cfg answers tlb pcb (atoi logicalAddress) then some (r, value) else none
  | _, _, _ => none

/-- A `SET` that is executed finds zero in its register, up to what the operand loses in `atoi`,
and a load that is skipped finds its value there. -/
def Unseen (cfg : CpuConfig) (pcb : Pcb) (o : Observed) : Event → Prop
  | .turn interruption answers => o.driver.phase = .running →
      keepsRunning (interrupted o.driver.cpu interruption) = true →
      ∀ register value f,
        ((fetchNextInstructionToExecute o.driver.pcb).bind fun line =>
          misses cfg answers o.driver.cpu.tlb o.driver.pcb (decode cfg line)) =
            some (register, value) →
        reference cfg pcb o.responses = some f → f register = value
  | .dispatch _ => True

instance (e : Event) : Decidable (FaultsWithoutFrame e) :=
  match e with
  | .dispatch _ => isTrue trivial
  | .turn _ answers =>
    match h : answers.frame with
    | .pageFault f => decidable_of_iff (f = -1) (by simp [FaultsWithoutFrame, h])
    | .frameResponse _ => isTrue (by simp [FaultsWithoutFrame, h])
    | .configMemory _ _ => isTrue (by simp [FaultsWithoutFrame, h])
    | .movOutOk => isTrue (by simp [FaultsWithoutFrame, h])
    | .movInOk _ => isTrue (by simp [FaultsWithoutFrame, h])

instance (cfg : CpuConfig) (pcb : Pcb) (o : Observed) (e : Event) :
    Decidable (Unseen cfg pcb o e) :=
  match e with
  | .dispatch _ => isTrue trivial
  | .turn interruption answers =>
    decidable_of_iff (o.driver.phase = .running →
      keepsRunning (interrupted o.driver.cpu interruption) = true →
      ((fetchNextInstructionToExecute o.driver.pcb).bind fun line =>
        misses cfg answers o.driver.cpu.tlb o.driver.pcb (decode cfg line)).all
          (fun target => (reference cfg pcb o.responses).all
            fun f => decide (f target.1 = target.2)) = true) (by
        simp only [Unseen, Option.all_eq_true, decide_eq_true_eq, Prod.forall]
        constructor
        · intro h hrun hkeep register value f hs hf
          exact h hrun hkeep register value hs f hf
        · intro h hrun hkeep register value hs f hf
          exact h hrun hkeep register value f hs hf)

theorem lost_of_long (value : String)
    (h : -2^63 ≤ numeral value.toList ∧ numeral value.toList < 2^63) : lost value = 0 := by
  rw [lost, atoi, strtol_numeral _ h, of_int_bmod, sub_self]

theorem attend_cpu_faults_without_frame (cfg : MemoryState.MemoryConfig) (m m' : MemoryState.Memory)
    (request : CpuRequest) (f : ℤ) (h : attendCpu cfg m request = some (m', .pageFault f)) :
    f = -1 := by
  cases request with
  | sendConfig => simp [attendCpu] at h
  | frameRequest pcb pageNumber segmentNumber =>
    simp only [attendCpu, Option.bind_eq_bind, Option.bind_eq_some_iff] at h
    obtain ⟨frame, _, h⟩ := h
    by_cases hf : frame = -1
    · simp only [hf, if_true, Option.some.injEq, Prod.mk.injEq, CpuResponse.pageFault.injEq] at h
      exact h.2.symm
    · simp [hf] at h
  | movOut physicalAddress registerValue segmentIndex pid =>
    simp [attendCpu, Option.bind_eq_some_iff] at h
  | movIn physicalAddress pcb segmentNumber pageNumber =>
    simp [attendCpu, Option.bind_eq_some_iff] at h

theorem reference_from_snoc (cfg : CpuConfig) (pcb : Pcb) (responses : List CpuResponse)
    (response : CpuResponse) (pc : ℤ) (f : File) :
    referenceFrom cfg pcb pc f (responses++[response]) =
      (referenceFrom cfg pcb pc f responses).bind fun g =>
        (nextInstruction cfg pcb (pc+responses.length)).map fun instruction =>
          referenceInstruction cfg pcb g instruction response := by
  induction responses generalizing pc f with
  | nil =>
    cases h : nextInstruction cfg pcb pc <;> simp [referenceFrom, h]
  | cons r responses ih =>
    simp only [List.cons_append, referenceFrom, Option.bind_eq_bind, List.length_cons]
    cases nextInstruction cfg pcb pc with
    | none => rfl
    | some instruction =>
      have hpc : pc+1+(responses.length : ℤ) = pc+((responses.length+1 : ℕ) : ℤ) := by
        push_cast
        ring
      simpa [hpc] using ih (pc+1) (referenceInstruction cfg pcb f instruction r)

theorem reference_snoc (cfg : CpuConfig) (pcb : Pcb) (responses : List CpuResponse)
    (response : CpuResponse) :
    reference cfg pcb (responses++[response]) =
      (reference cfg pcb responses).bind fun f =>
        (nextInstruction cfg pcb (pcb.programCounter+responses.length)).map fun instruction =>
          referenceInstruction cfg pcb f instruction response :=
  reference_from_snoc cfg pcb responses response pcb.programCounter (file pcb.cpuRegisters)

theorem find_frame_fault {response : CpuResponse} {frame : ℤ}
    (h : findFrame response = some (frame, true)) : response = .pageFault frame := by
  cases response <;> simp_all [findFrame]

/-- A page fault comes with frame -1, and then there is no address. -/
theorem build_physical_address_fault {cfg : CpuConfig} {tlb tlb' : List RowTlb} {answers : Answers}
    {params : LogicalAddressParameters} {pcb : Pcb} {address : ℤ}
    (hframe : ∀ f, answers.frame = .pageFault f → f = -1)
    (h : buildPhysicalAddress cfg tlb (some answers.frame) answers.times params pcb =
      some (address, tlb', true)) : address = -1 := by
  simp only [buildPhysicalAddress, Option.bind_eq_bind, Option.bind_eq_some_iff] at h
  obtain ⟨⟨found, tlb₁⟩, _, h⟩ := h
  by_cases hmiss : found = -1
  · simp only [hmiss, if_true, Option.bind_eq_some_iff, Option.some.injEq] at h
    obtain ⟨response, rfl, ⟨frame, fault⟩, hfind, h⟩ := h
    by_cases hf : frame = -1
    · simp only [hf, ne_eq, not_true_eq_false, if_false, Option.some.injEq, Prod.mk.injEq] at h
      exact h.1.symm
    · simp only [ne_eq, hf, not_false_eq_true, if_true, Option.some.injEq, Prod.mk.injEq] at h
      obtain ⟨_, _, rfl⟩ := h
      exact absurd (hframe _ (find_frame_fault hfind)) hf
  · simp [hmiss] at h

/-- A `MOV` either reaches memory at its own address or leaves the registers. -/
theorem with_address_registers {cfg : CpuConfig} {answers : Answers} {cpu cpu' : Cpu} {pcb : Pcb}
    {a : ℤ} {access : Cpu → LogicalAddressParameters → ℤ → Option (Cpu × Option Access)}
    {done : Option Access} (hframe : ∀ f, answers.frame = .pageFault f → f = -1)
    (h : withAddress cfg answers cpu pcb a access = some (cpu', done)) :
    (cpu'.registers = cpu.registers ∧ done = none) ∨
    ∃ params tlb address, translateLogicalAddress cfg a pcb = some (params, false) ∧
      access { cpu with tlb := tlb } params address = some (cpu', done) := by
  cases with_address_some h with
  | outside params translated => exact Or.inl ⟨rfl, rfl⟩
  | ended params translated before => exact Or.inl ⟨rfl, rfl⟩
  | nowhere params tlb fault translated built => cases fault <;> exact Or.inl ⟨rfl, rfl⟩
  | reaches params tlb fault address translated built real cpu' done accessed =>
    cases fault with
    | true => exact absurd (build_physical_address_fault hframe built) real
    | false => exact Or.inr ⟨params, tlb, address, translated, accessed⟩

theorem mov_in_access_some {answers : Answers} {register : String} {c c' : Cpu}
    {params : LogicalAddressParameters} {address : ℤ} {made : Option Access}
    (h : movInAccess answers register c params address = some (c', made)) :
    ∃ value, answers.value = .movInOk value ∧ made = some (.load params address value) ∧
      c' = { c with registers := storeValueInRegister c.registers register value } := by
  cases hvalue : answers.value with
  | movInOk value =>
    simp only [movInAccess, hvalue, Option.some.injEq, Prod.mk.injEq] at h
    exact ⟨value, rfl, h.2.symm, h.1.symm⟩
  | _ => simp [movInAccess, hvalue] at h

theorem mov_out_access_some {pcb : Pcb} {register : String} {c c' : Cpu}
    {params : LogicalAddressParameters} {address : ℤ} {made : Option Access}
    (h : movOutAccess pcb register c params address = some (c', made)) :
    (∃ row, listGet pcb.segmentTable params.segmentNumber = some row) ∧
      made = some (.store params address (findValueOfRegister c.registers register)) ∧ c' = c := by
  simp only [movOutAccess, Option.bind_eq_bind, Option.bind_eq_some_iff, Option.some.injEq,
    Prod.mk.injEq] at h
  obtain ⟨row, hrow, rfl, rfl⟩ := h
  exact ⟨⟨row, hrow⟩, rfl, rfl⟩

theorem mov_in_access_fault {answers : Answers} {register : String} {c c' : Cpu}
    {params : LogicalAddressParameters} {address : ℤ} {made : Option Access}
    (h : movInAccess answers register c params address = some (c', made)) :
    c'.pageFault = c.pageFault := by
  obtain ⟨value, -, -, rfl⟩ := mov_in_access_some h
  rfl

theorem mov_out_access_fault {pcb : Pcb} {register : String} {c c' : Cpu}
    {params : LogicalAddressParameters} {address : ℤ} {made : Option Access}
    (h : movOutAccess pcb register c params address = some (c', made)) :
    c'.pageFault = c.pageFault := by
  obtain ⟨-, -, rfl⟩ := mov_out_access_some h
  rfl

theorem update_add_iff (f : File) (register : Register) (value : String) :
    Function.update f register (f register+UInt32.ofInt (atoi value)) =
      Function.update f register (UInt32.ofInt (numeral value.toList)) ↔
    f register = lost value := by
  constructor
  · intro h
    have hr := congrFun h register
    simp only [Function.update_self] at hr
    rw [lost, ← hr, add_sub_cancel_right]
  · intro h
    rw [h, lost, sub_add_cancel]

/-- A load that does not fault is outside its segment, is skipped or is made. -/
theorem mov_in_registers {cfg : CpuConfig} {answers : Answers} {cpu cpu' : Cpu} {pcb : Pcb} {a : ℤ}
    {register : String} {done : Option Access} (hseg : cpu.sigsegv = false)
    (hfault : cpu'.pageFault = false)
    (h : withAddress cfg answers cpu pcb a (movInAccess answers register) = some (cpu', done)) :
    (∃ params, translateLogicalAddress cfg a pcb = some (params, true)) ∧
      cpu'.registers = cpu.registers ∨
    (∃ params, translateLogicalAddress cfg a pcb = some (params, false)) ∧
      (skips cfg answers cpu.tlb pcb a = true ∧ cpu'.registers = cpu.registers ∨
        skips cfg answers cpu.tlb pcb a = false ∧ ∃ value, answers.value = .movInOk value ∧
          file cpu'.registers = assign (file cpu.registers) register value) := by
  cases with_address_some h with
  | outside params translated => exact Or.inl ⟨⟨params, translated⟩, rfl⟩
  | ended params translated before => simp [hseg] at before
  | nowhere params tlb fault translated built =>
    cases fault with
    | true => simp [lookedUp, faulted] at hfault
    | false =>
      -- the page is there, and the CPU takes the address for none
      exact Or.inr ⟨⟨params, translated⟩, Or.inl ⟨by simp [skips, translated, built], rfl⟩⟩
  | reaches params tlb fault address translated built real cpu' done accessed =>
    obtain ⟨value, hvalue, -, rfl⟩ := mov_in_access_some accessed
    have hloaded : file (storeValueInRegister (lookedUp cpu tlb fault params).registers register
        value) = assign (file cpu.registers) register value := by
      rw [store_value_in_register_file]
      cases fault <;> rfl
    exact Or.inr ⟨⟨params, translated⟩, Or.inr ⟨by simp [skips, translated, built, real], value,
      hvalue, hloaded⟩⟩

/-- What an instruction that does not fault makes of the registers is what the reference
interpreter makes of them, exactly when what it misses cannot be seen. -/
theorem execute_instruction_registers {cfg : CpuConfig} {answers : Answers} {cpu cpu' : Cpu}
    {pcb : Pcb} {instruction : List String} {done : Option Access} (hseg : cpu.sigsegv = false)
    (hframe : ∀ f, answers.frame = .pageFault f → f = -1)
    (h : executeInstruction cfg answers cpu pcb instruction = some (cpu', done))
    (hfault : cpu'.pageFault = false) :
    file cpu'.registers =
      referenceInstruction cfg pcb (file cpu.registers) instruction answers.value ↔
    ∀ register value, misses cfg answers cpu.tlb pcb instruction = some (register, value) →
      file cpu.registers register = value := by
  simp only [executeInstruction, Option.bind_eq_bind, Option.bind_eq_some_iff] at h
  obtain ⟨name, hname, h⟩ := h
  cases hkey : keyfromstring name with
  | set =>
    simp only [hkey, Option.bind_eq_some_iff, Option.some.injEq, Prod.mk.injEq] at h
    obtain ⟨register, h1, value, h2, rfl, rfl⟩ := h
    cases hreg : registerNamed register with
    | none =>
      simp [misses, referenceInstruction, hname, hkey, h1, h2, hreg, add_value_to_register_file,
        assign]
    | some r =>
      simpa [misses, referenceInstruction, hname, hkey, h1, h2, hreg, add_value_to_register_file,
        assign] using update_add_iff (file cpu.registers) r value
  | add =>
    simp only [hkey, Option.bind_eq_some_iff, Option.some.injEq, Prod.mk.injEq] at h
    obtain ⟨destination, h1, source, h2, rfl, rfl⟩ := h
    cases hd : registerNamed destination <;> cases hs : registerNamed source <;>
      simp [misses, referenceInstruction, hname, hkey, h1, h2, add_two_registers_file, hd, hs]
  | io =>
    simp only [hkey, Option.bind_eq_some_iff, Option.some.injEq, Prod.mk.injEq] at h
    obtain ⟨device, h1, parameter, h2, rfl, rfl⟩ := h
    simp [misses, referenceInstruction, hname, hkey]
  | exit | badkey =>
    simp only [hkey, Option.some.injEq, Prod.mk.injEq] at h
    obtain ⟨rfl, rfl⟩ := h
    simp [misses, referenceInstruction, hname, hkey]
  | movOut =>
    simp only [hkey, Option.bind_eq_some_iff] at h
    obtain ⟨logicalAddress, h1, register, h2, h⟩ := h
    have hsame : cpu'.registers = cpu.registers := by
      rcases with_address_registers hframe h with ⟨hsame, -⟩ | ⟨params, tlb, address, -, h⟩
      · exact hsame
      · obtain ⟨-, -, rfl⟩ := mov_out_access_some h
        rfl
    simp [misses, referenceInstruction, hname, hkey, hsame]
  | movIn =>
    simp only [hkey, Option.bind_eq_some_iff] at h
    obtain ⟨register, h1, logicalAddress, h2, h⟩ := h
    simp only [misses, referenceInstruction, hname, hkey, h1, h2, Option.map_some]
    rcases mov_in_registers hseg hfault h with ⟨⟨params, ht⟩, hsame⟩ | ⟨⟨params, ht⟩,
      ⟨hskips, hsame⟩ | ⟨hskips, value, hvalue, hloaded⟩⟩
    · simp [returnedFor, ht, hsame]
    · cases hvalue : answers.value with
      | movInOk value =>
        cases hreg : registerNamed register with
        | none => simp [returnedFor, ht, hsame, hreg, assign]
        | some r =>
          have hiff : file cpu.registers = Function.update (file cpu.registers) r value ↔
              file cpu.registers r = value := by
            rw [eq_comm, Function.update_eq_self_iff, eq_comm]
          simp [returnedFor, ht, hsame, hreg, assign, hskips, hiff]
      | _ => simp [returnedFor, ht, hsame]
    · simp [returnedFor, ht, hvalue, hloaded, hskips]

theorem with_address_fault {cfg : CpuConfig} {answers : Answers} {cpu cpu' : Cpu} {pcb : Pcb}
    {a : ℤ} {access : Cpu → LogicalAddressParameters → ℤ → Option (Cpu × Option Access)}
    {done : Option Access} (hframe : ∀ f, answers.frame = .pageFault f → f = -1)
    (haccess : ∀ c params address c' m, access c params address = some (c', m) →
      c'.pageFault = c.pageFault) (hbefore : cpu.pageFault = false) (hfault : cpu'.pageFault = true)
    (h : withAddress cfg answers cpu pcb a access = some (cpu', done)) :
    cpu'.registers = cpu.registers ∧ done = none ∧ isPageFault answers.frame = true := by
  cases with_address_some h with
  | outside params translated => simp [hbefore] at hfault
  | ended params translated before => simp [hbefore] at hfault
  | nowhere params tlb fault translated built =>
    cases fault with
    | true =>
      obtain ⟨n, hn⟩ := build_physical_address_answer built
      exact ⟨rfl, rfl, by rw [hn]; rfl⟩
    | false => simp [lookedUp, hbefore] at hfault
  | reaches params tlb fault address translated built real cpu' done accessed =>
    cases fault with
    | true => exact absurd (build_physical_address_fault hframe built) real
    | false => simp [haccess _ _ _ _ _ accessed, lookedUp, hbefore] at hfault

/-- An instruction faults on memory's answer, sends nothing and leaves the registers. -/
theorem execute_instruction_fault {cfg : CpuConfig} {answers : Answers} {cpu cpu' : Cpu}
    {pcb : Pcb} {instruction : List String} {done : Option Access}
    (hframe : ∀ f, answers.frame = .pageFault f → f = -1) (hbefore : cpu.pageFault = false)
    (h : executeInstruction cfg answers cpu pcb instruction = some (cpu', done))
    (hfault : cpu'.pageFault = true) :
    cpu'.registers = cpu.registers ∧ done = none ∧ isPageFault answers.frame = true := by
  simp only [executeInstruction, Option.bind_eq_bind, Option.bind_eq_some_iff] at h
  obtain ⟨name, hname, h⟩ := h
  cases hkey : keyfromstring name with
  | set | add | io =>
    simp only [hkey, Option.bind_eq_some_iff, Option.some.injEq, Prod.mk.injEq] at h
    obtain ⟨_, h1, _, h2, rfl, rfl⟩ := h
    simp [hbefore] at hfault
  | exit | badkey =>
    simp only [hkey, Option.some.injEq, Prod.mk.injEq] at h
    obtain ⟨rfl, rfl⟩ := h
    simp [hbefore] at hfault
  | movIn =>
    simp only [hkey, Option.bind_eq_some_iff] at h
    obtain ⟨register, h1, logicalAddress, h2, h⟩ := h
    exact with_address_fault hframe (fun _ _ _ _ _ => mov_in_access_fault) hbefore hfault h
  | movOut =>
    simp only [hkey, Option.bind_eq_some_iff] at h
    obtain ⟨logicalAddress, h1, register, h2, h⟩ := h
    exact with_address_fault hframe (fun _ _ _ _ _ => mov_out_access_fault) hbefore hfault h

theorem fault_misses_nothing {cfg : CpuConfig} {answers : Answers} {cpu cpu' : Cpu}
    {pcb : Pcb} {instruction : List String} {done : Option Access} (hbefore : cpu.pageFault = false)
    (h : executeInstruction cfg answers cpu pcb instruction = some (cpu', done))
    (hfault : cpu'.pageFault = true) : misses cfg answers cpu.tlb pcb instruction = none := by
  simp only [executeInstruction, Option.bind_eq_bind, Option.bind_eq_some_iff] at h
  obtain ⟨name, hname, h⟩ := h
  cases hkey : keyfromstring name with
  | set =>
    simp only [hkey, Option.bind_eq_some_iff, Option.some.injEq, Prod.mk.injEq] at h
    obtain ⟨register, h1, value, h2, rfl, rfl⟩ := h
    simp [hbefore] at hfault
  | movIn =>
    simp only [hkey, Option.bind_eq_some_iff] at h
    obtain ⟨register, h1, logicalAddress, h2, h⟩ := h
    have hskips : skips cfg answers cpu.tlb pcb (atoi logicalAddress) = false := by
      cases with_address_some h with
      | outside params translated => simp [hbefore] at hfault
      | ended params translated before => simp [hbefore] at hfault
      | nowhere params tlb fault translated built =>
        have hfaulted : fault = true := by
          cases fault with
          | true => rfl
          | false => simp [lookedUp, hbefore] at hfault
        simp [skips, translated, built, hfaulted]
      | reaches params tlb fault address translated built real cpu' done accessed =>
        simp [skips, translated, built, real]
    simp [misses, hname, hkey, h1, h2, hskips]
  | _ => simp [misses, hname, hkey]

theorem translate_same_segments {cfg : CpuConfig} {pcb pcb' : Pcb} (a : ℤ)
    (h : pcb.segmentTable = pcb'.segmentTable) :
    translateLogicalAddress cfg a pcb = translateLogicalAddress cfg a pcb' := by
  rw [translateLogicalAddress, translateLogicalAddress, h]

theorem reference_instruction_same_segments {cfg : CpuConfig} {pcb pcb' : Pcb}
    (h : pcb.segmentTable = pcb'.segmentTable) (f : File) (instruction : List String)
    (response : CpuResponse) :
    referenceInstruction cfg pcb f instruction response =
      referenceInstruction cfg pcb' f instruction response := by
  have hret : ∀ a, returnedFor cfg pcb a response = returnedFor cfg pcb' a response := by
    intro a
    unfold returnedFor
    rw [translate_same_segments a h]
  unfold referenceInstruction
  simp only [hret]

/-- The driver stands in the program where the reference interpreter does. -/
structure Aligned (pcb : Pcb) (o : Observed) : Prop where
  instructions : o.driver.pcb.instructions = pcb.instructions
  segments : o.driver.pcb.segmentTable = pcb.segmentTable
  counter : o.driver.pcb.programCounter = pcb.programCounter+o.responses.length
  returned : ∀ p, o.driver.phase = .returned (.executeInterruption p) ∨
    (∃ segment page, o.driver.phase = .returned (.pageFault p segment page)) → p = o.driver.pcb

theorem leave_process_pcb {cpu cpu' : Cpu} {pcb p : Pcb} {package : CpuPackage}
    (h : leaveProcess cpu pcb = (cpu', some package))
    (hp : package = .executeInterruption p ∨ ∃ segment page, package = .pageFault p segment page) :
    p = pcb := by
  unfold leaveProcess at h
  split at h
  · simp only [Prod.mk.injEq, Option.some.injEq] at h
    rcases hp with rfl | ⟨segment, page, rfl⟩ <;> simp at h
  split at h
  · simp only [Prod.mk.injEq, Option.some.injEq, sendPcbIoPackage] at h
    rcases hp with rfl | ⟨segment, page, rfl⟩ <;> split at h <;> (try split at h) <;> simp at h
  split at h
  · simp only [Prod.mk.injEq, Option.some.injEq] at h
    rcases hp with rfl | ⟨segment, page, rfl⟩
    · simp at h
    · simp only [CpuPackage.pageFault.injEq] at h
      exact h.2.1.symm
  split at h
  · simp only [Prod.mk.injEq, Option.some.injEq] at h
    rcases hp with rfl | ⟨segment, page, rfl⟩ <;> simp at h
  split at h
  · simp only [Prod.mk.injEq, Option.some.injEq] at h
    rcases hp with rfl | ⟨segment, page, rfl⟩
    · simp only [CpuPackage.executeInterruption.injEq] at h
      exact h.2.symm
    · simp at h
  · simp at h

/-- What a step of the driver is: an instruction, a return to the kernel or a dispatch. -/
theorem driver_step_cases {cfg : CpuConfig} {d d' : Driver} {e : Event}
    (h : driverStep cfg d e = some d') :
    (∃ interruption answers line cpu pcb access, e = .turn interruption answers ∧
      d.phase = .running ∧ keepsRunning (interrupted d.cpu interruption) = true ∧
      fetchNextInstructionToExecute d.pcb = some line ∧
      executeInstruction cfg answers (interrupted d.cpu interruption) d.pcb (decode cfg line) =
        some (cpu, access) ∧
      pcb = (if cpu.pageFault then d.pcb else updateProgramCounter d.pcb) ∧
      d' = executed d (decode cfg line) cpu pcb access) ∨
    (∃ interruption answers cpu package, e = .turn interruption answers ∧ d.phase = .running ∧
      keepsRunning (interrupted d.cpu interruption) = false ∧
      leaveProcess (interrupted d.cpu interruption)
        (saveContextPcb (interrupted d.cpu interruption) d.pcb) = (cpu, some package) ∧
      d' = { d with
        cpu := cpu
        pcb := saveContextPcb (interrupted d.cpu interruption) d.pcb
        phase := .returned package }) ∨
    (∃ left pcb, e = .dispatch left ∧ (d.phase = .returned (.executeInterruption pcb) ∨
        ∃ segment page, d.phase = .returned (.pageFault pcb segment page)) ∧
      d' = { d with cpu := setRegisters left pcb, pcb := pcb, phase := .running }) := by
  cases e with
  | turn interruption answers =>
    cases hrun : d.phase with
    | returned package => simp [driverStep, hrun] at h
    | running =>
    cases hkeep : keepsRunning (interrupted d.cpu interruption) with
    | true =>
      simp only [driverStep, hrun, hkeep, if_true, instructionCycle, Option.bind_eq_bind,
        Option.bind_eq_some_iff, Option.some.injEq] at h
      obtain ⟨line, hline, ⟨cpu, pcb, access⟩, ⟨line', hline', ⟨cpu', access'⟩, hexec, hcycle⟩, rfl⟩ :=
        h
      obtain rfl := Option.some.inj (hline.symm.trans hline')
      simp only [Prod.mk.injEq] at hcycle
      obtain ⟨rfl, rfl, rfl⟩ := hcycle
      exact Or.inl ⟨interruption, answers, line, _, _, _, rfl, rfl, hkeep, hline, hexec, rfl, rfl⟩
    | false =>
      right
      left
      simp only [driverStep, hrun, hkeep, Bool.false_eq_true, if_false, Option.bind_eq_bind,
        Option.bind_eq_some_iff, Option.some.injEq] at h
      obtain ⟨package, hp, rfl⟩ := h
      exact ⟨interruption, answers, _, package, rfl, rfl, hkeep, Prod.ext rfl hp, rfl⟩
  | dispatch left =>
    right
    right
    simp only [driverStep] at h
    split at h
    · rename_i pcb hp
      exact ⟨left, pcb, rfl, Or.inl hp, (Option.some.inj h).symm⟩
    · rename_i pcb segment page hp
      exact ⟨left, pcb, rfl, Or.inr ⟨segment, page, hp⟩, (Option.some.inj h).symm⟩
    · simp at h

/-- The registers of a turn, and the flags with which it executes. -/
theorem interrupted_clear {cpu : Cpu} {interruption : Bool}
    (hkeep : keepsRunning (interrupted cpu interruption) = true) :
    (interrupted cpu interruption).registers = cpu.registers ∧
      (interrupted cpu interruption).tlb = cpu.tlb ∧
      (interrupted cpu interruption).pageFault = false ∧
      (interrupted cpu interruption).sigsegv = false := by
  simp only [keepsRunning, Bool.and_eq_true, Bool.not_eq_true'] at hkeep
  refine ⟨?_, ?_, hkeep.1.2, hkeep.2⟩ <;> cases interruption <;> rfl

/-- What a step is to the reference interpreter: nothing, or an instruction. -/
theorem observe_cases {cfg : CpuConfig} {o o' : Observed} {e : Event} (hf : FaultsWithoutFrame e)
    (h : observe cfg o e = some o') :
    (∃ interruption answers line cpu access, e = .turn interruption answers ∧
      o.driver.phase = .running ∧ keepsRunning (interrupted o.driver.cpu interruption) = true ∧
      fetchNextInstructionToExecute o.driver.pcb = some line ∧
      executeInstruction cfg answers (interrupted o.driver.cpu interruption) o.driver.pcb
        (decode cfg line) = some (cpu, access) ∧
      ((cpu.pageFault = true ∧ cpu.registers = o.driver.cpu.registers ∧
          o' = ⟨executed o.driver (decode cfg line) cpu o.driver.pcb access, o.responses⟩) ∨
        (cpu.pageFault = false ∧
          o' = ⟨executed o.driver (decode cfg line) cpu (updateProgramCounter o.driver.pcb) access,
            o.responses++[answers.value]⟩))) ∨
    (∃ interruption answers cpu package, e = .turn interruption answers ∧
      o.driver.phase = .running ∧ keepsRunning (interrupted o.driver.cpu interruption) = false ∧
      leaveProcess (interrupted o.driver.cpu interruption)
        (saveContextPcb (interrupted o.driver.cpu interruption) o.driver.pcb) =
          (cpu, some package) ∧
      o' = ⟨{ o.driver with
        cpu := cpu
        pcb := saveContextPcb (interrupted o.driver.cpu interruption) o.driver.pcb
        phase := .returned package }, o.responses⟩) ∨
    (∃ left pcb, e = .dispatch left ∧ (o.driver.phase = .returned (.executeInterruption pcb) ∨
        ∃ segment page, o.driver.phase = .returned (.pageFault pcb segment page)) ∧
      o' = ⟨{ o.driver with cpu := setRegisters left pcb, pcb := pcb, phase := .running },
        o.responses⟩) := by
  obtain ⟨d', hd, rfl⟩ := Option.map_eq_some_iff.mp h
  rcases driver_step_cases hd with ⟨interruption, answers, line, cpu, p, access, rfl, hrun, hkeep,
      hline, hexec, rfl, rfl⟩ | ⟨interruption, answers, cpu, package, rfl, hrun, hkeep, hleave, rfl⟩ |
      ⟨left, p, rfl, hp, rfl⟩
  · obtain ⟨hregs, -, hclear, -⟩ := interrupted_clear hkeep
    refine Or.inl ⟨interruption, answers, line, cpu, access, rfl, hrun, hkeep, hline, hexec, ?_⟩
    cases hfault : cpu.pageFault with
    | true =>
      obtain ⟨hsame, -, hanswer⟩ := execute_instruction_fault hf hclear hexec hfault
      exact Or.inl ⟨rfl, hsame.trans hregs, by simp [responsesOf, executed, hfault, hanswer]⟩
    | false => exact Or.inr ⟨rfl, by simp [responsesOf, executed, hfault, hrun, hkeep]⟩
  · exact Or.inr (Or.inl ⟨interruption, answers, cpu, package, rfl, hrun, hkeep, hleave, by
      simp [responsesOf, hkeep]⟩)
  · exact Or.inr (Or.inr ⟨left, p, rfl, hp, by simp [responsesOf]⟩)

theorem aligned_step {cfg : CpuConfig} {pcb : Pcb} (o : Observed) (e : Event) (o' : Observed)
    (ha : Aligned pcb o) (hf : FaultsWithoutFrame e) (h : observe cfg o e = some o') :
    Aligned pcb o' := by
  rcases observe_cases hf h with ⟨interruption, answers, line, cpu, access, rfl, hrun, hkeep, hline,
      hexec, ⟨hfault, -, rfl⟩ | ⟨hfault, rfl⟩⟩ |
      ⟨interruption, answers, cpu, package, rfl, hrun, hkeep, hleave, rfl⟩ | ⟨left, p, rfl, hp, rfl⟩
  · exact ⟨ha.instructions, ha.segments, ha.counter, by simp [executed]⟩
  · refine ⟨ha.instructions, ha.segments, ?_, by simp [executed]⟩
    have hc := ha.counter
    simp only [executed, updateProgramCounter, hc, List.length_append, List.length_singleton]
    push_cast
    ring
  · refine ⟨ha.instructions, ha.segments, ha.counter, fun q hq => ?_⟩
    apply leave_process_pcb hleave
    simpa using hq
  · obtain rfl := ha.returned p hp
    exact ⟨ha.instructions, ha.segments, ha.counter, by simp⟩

theorem next_instruction_aligned {cfg : CpuConfig} {pcb : Pcb} {o : Observed} {line : String}
    (ha : Aligned pcb o) (hline : fetchNextInstructionToExecute o.driver.pcb = some line) :
    nextInstruction cfg pcb (pcb.programCounter+o.responses.length) = some (decode cfg line) := by
  rw [fetchNextInstructionToExecute, ha.instructions, ha.counter] at hline
  rw [nextInstruction, hline]
  rfl

/-- A step keeps the agreement exactly when what the CPU misses in it cannot be seen. -/
theorem agrees_step_iff {cfg : CpuConfig} {pcb : Pcb} (o : Observed) (e : Event) (o' : Observed)
    (ha : Aligned pcb o) (hagree : Agrees cfg pcb o) (hf : FaultsWithoutFrame e)
    (h : observe cfg o e = some o') : Agrees cfg pcb o' ↔ Unseen cfg pcb o e := by
  rcases observe_cases hf h with ⟨interruption, answers, line, cpu, access, rfl, hrun, hkeep, hline,
      hexec, hdone⟩ | ⟨interruption, answers, cpu, package, rfl, hrun, hkeep, hleave, rfl⟩ |
      ⟨left, p, rfl, hp, rfl⟩
  · obtain ⟨hregs, htlb, -, hseg⟩ := interrupted_clear hkeep
    have hctx : (context o.driver).cpuRegisters = o.driver.cpu.registers := by
      simp [context, hrun, saveContextPcb]
    rw [Agrees, hctx] at hagree
    have hunseen : Unseen cfg pcb o (.turn interruption answers) ↔ ∀ register value,
        misses cfg answers o.driver.cpu.tlb o.driver.pcb (decode cfg line) =
          some (register, value) → file o.driver.cpu.registers register = value := by
      simp [Unseen, hrun, hkeep, hline, hagree]
    rcases hdone with ⟨hfault, hsame, rfl⟩ | ⟨hfault, rfl⟩
    · obtain ⟨-, -, hclear, -⟩ := interrupted_clear hkeep
      have hnone := fault_misses_nothing hclear hexec hfault
      rw [htlb] at hnone
      simp [hunseen, hnone, Agrees, executed, context, saveContextPcb, hsame, hagree]
    · have href : reference cfg pcb (o.responses++[answers.value]) =
          some (referenceInstruction cfg o.driver.pcb (file o.driver.cpu.registers)
            (decode cfg line) answers.value) := by
        rw [reference_snoc, hagree, next_instruction_aligned ha hline,
          reference_instruction_same_segments ha.segments]
        rfl
      have hspec := execute_instruction_registers hseg hf hexec hfault
      rw [hregs, htlb] at hspec
      rw [hunseen, ← hspec, Agrees, href, Option.some.injEq, eq_comm]
      rfl
  · have hregs : (interrupted o.driver.cpu interruption).registers = o.driver.cpu.registers := by
      cases interruption <;> rfl
    have hsame : Agrees cfg pcb ⟨{ o.driver with
        cpu := cpu
        pcb := saveContextPcb (interrupted o.driver.cpu interruption) o.driver.pcb
        phase := .returned package }, o.responses⟩ := by
      simpa [Agrees, context, hrun, saveContextPcb, hregs] using hagree
    simp [hsame, Unseen, hkeep]
  · obtain rfl := ha.returned p hp
    have hsame : Agrees cfg pcb ⟨{ o.driver with
        cpu := setRegisters left o.driver.pcb, pcb := o.driver.pcb, phase := .running },
        o.responses⟩ := by
      have hctx : context o.driver = o.driver.pcb := by
        rcases hp with hp | ⟨segment, page, hp⟩ <;> simp [context, hp]
      rw [Agrees, hctx] at hagree
      exact hagree
    simp [hsame, Unseen]

/-- An instruction that misses something is never refused. -/
theorem refused_unseen {cfg : CpuConfig} {pcb : Pcb} (o : Observed) (e : Event)
    (h : observe cfg o e = none) : Unseen cfg pcb o e := by
  cases e with
  | dispatch left => trivial
  | turn interruption answers =>
    intro hrun hkeep register value f hmisses hf
    exfalso
    obtain ⟨-, htlb, -, hseg⟩ := interrupted_clear hkeep
    obtain ⟨line, hline, hmisses⟩ := Option.bind_eq_some_iff.mp hmisses
    have hrefused : executeInstruction cfg answers (interrupted o.driver.cpu interruption)
        o.driver.pcb (decode cfg line) = none := by
      cases hexec : executeInstruction cfg answers (interrupted o.driver.cpu interruption)
          o.driver.pcb (decode cfg line) with
      | none => rfl
      | some result => simp [observe, driverStep, hrun, hkeep, hline, instructionCycle, hexec] at h
    unfold misses at hmisses
    split at hmisses
    · rename_i register' value' hkey h1 h2
      obtain ⟨key, h0, hkey⟩ := Option.map_eq_some_iff.mp hkey
      simp [executeInstruction, h0, hkey, h1, h2] at hrefused
    · rename_i register' logicalAddress hkey h1 h2
      obtain ⟨key, h0, hkey⟩ := Option.map_eq_some_iff.mp hkey
      simp only [Option.bind_eq_bind, Option.bind_eq_some_iff, Option.ite_none_right_eq_some] at hmisses
      obtain ⟨r, -, v, hv, hskips, -⟩ := hmisses
      simp only [skips, Option.any_eq_true, Option.bind_eq_some_iff, Bool.and_eq_true,
        decide_eq_true_eq] at hskips
      obtain ⟨⟨address, tlb, fault⟩, ⟨⟨params, outside⟩, ht, hb⟩, rfl, -⟩ := hskips
      have hinside : outside = false := by
        cases outside with
        | false => rfl
        | true => simp [returnedFor, ht] at hv
      simp [executeInstruction, withAddress, h0, hkey, h1, h2, ht, hinside, hseg, htlb, hb]
        at hrefused
    · simp at hmisses

/-- Along every run of a process, over any interruptions, faults and dispatches, the registers are
those of the reference interpreter exactly as long as every `SET` finds its register at zero and
every load that is skipped finds its value there. -/
theorem registers_follow_reference_iff (cfg : CpuConfig) (left : Cpu) (pcb : Pcb)
    (events : List Event)
    (hf : Guarded (observe cfg) (fun _ e => FaultsWithoutFrame e) (observed left pcb) events) :
    Always (observe cfg) (Agrees cfg pcb) (observed left pcb) events ↔
      Guarded (observe cfg) (Unseen cfg pcb) (observed left pcb) events := by
  apply always_iff_guarded (observe cfg) (Aligned pcb) (Agrees cfg pcb)
    (fun _ e => FaultsWithoutFrame e) (Unseen cfg pcb)
  · intro o e o' ha hf h
    exact aligned_step o e o' ha hf h
  · intro o e o' ha hagree hf h
    exact agrees_step_iff o e o' ha hagree hf h
  · intro o e _ _ h
    exact refused_unseen o e h
  · exact ⟨rfl, rfl, by simp [observed, dispatched], by simp [observed, dispatched]⟩
  · rfl
  · exact hf

def small (segments : List String) (instructions : List String) : Observed :=
  observed (idleCpu ⟨0, 0, 0, 0⟩) (pcbCreate instructions 0 1 segments)

/-- A turn in which memory has `value` in frame 0. -/
def loading (interruption : Bool) (value : UInt32) : Event :=
  .turn interruption ⟨.frameResponse 0, .movInOk value, ⟨midnight, midnight⟩⟩

/-- A process that sets one register twice. -/
def setsTwice : Observed := small [] ["SET AX 5", "SET AX 3", "EXIT"]

def twoTurns : List Event := [loading false 0, loading false 0]

def afterTwoTurns : Observed := reached (observe smallCpu) setsTwice twoTurns

/-- The second `SET` leaves 8 where the reference interpreter has 3. -/
theorem repeated_set_adds :
    run (observe smallCpu) setsTwice twoTurns = some afterTwoTurns ∧
    file (context afterTwoTurns.driver).cpuRegisters .ax = 8 ∧
    (reference smallCpu setsTwice.driver.pcb afterTwoTurns.responses).map (fun f => f .ax) =
      some 3 ∧
    ¬Agrees smallCpu setsTwice.driver.pcb afterTwoTurns := by
  have hrun := run_reached (observe smallCpu) setsTwice twoTurns (by decide +kernel)
  have hax : file (context afterTwoTurns.driver).cpuRegisters .ax = 8 := by decide +kernel
  have href : (reference smallCpu setsTwice.driver.pcb afterTwoTurns.responses).map
      (fun f => f .ax) = some 3 := by decide +kernel
  refine ⟨hrun, hax, href, fun h => ?_⟩
  rw [h, Option.map_some, hax] at href
  simp at href

/-- Address -1 is in the first segment, and in frame 0 its physical address is -1: nothing is
loaded and the program goes on. -/
example : (reached (observe smallCpu) (small ["16"] ["MOV_IN AX -1", "EXIT"])
      [loading false 9]).driver.pcb.programCounter = 1 ∧
    file (reached (observe smallCpu) (small ["16"] ["MOV_IN AX -1", "EXIT"])
      [loading false 9]).driver.cpu.registers .ax = 0 := by decide +kernel

/-- A process that sets two registers once, adds them and loads one, interrupted in between and
with a page fault. -/
def setsOnce : Observed :=
  small ["16"] ["SET AX 5", "SET BX 4294967295", "ADD AX BX", "MOV_IN CX 0", "EXIT"]

def interruptedTurns : List Event :=
  [loading false 0, loading true 0, .dispatch (idleCpu ⟨1, 2, 3, 4⟩), loading false 0,
    loading false 0, .turn false ⟨.pageFault (-1), .movInOk 0, ⟨midnight, midnight⟩⟩,
    loading false 0, .dispatch (idleCpu ⟨1, 2, 3, 4⟩), loading false 9]

theorem registers_follow_reference_interrupted :
    Always (observe smallCpu) (Agrees smallCpu setsOnce.driver.pcb) setsOnce interruptedTurns ∧
    (context (reached (observe smallCpu) setsOnce interruptedTurns).driver).cpuRegisters =
      ⟨4, 4294967295, 9, 0⟩ := by
  constructor
  · apply (registers_follow_reference_iff smallCpu (idleCpu ⟨0, 0, 0, 0⟩) setsOnce.driver.pcb
      interruptedTurns (by decide +kernel)).mpr
    decide +kernel
  · decide +kernel

end Geck.InstructionSet
