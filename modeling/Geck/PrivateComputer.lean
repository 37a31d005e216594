import Geck.InstructionSet

/-!
# A computer of one process

A process computes with its context, which is its PCB without what the kernel
and memory write there, and with the bytes of its pages. A private computer has
one context and one memory and nothing of the other processes, of queues, of
frames or of the TLB.
-/

set_option autoImplicit false

namespace Geck.PrivateComputer
open Geck.BlockStore Geck.SharedPcb Geck.MemoryHandlers Geck.CpuTranslation Geck.CpuExecution
open Geck.CpuEffects Geck.InstructionSet

/-- The PCB without its state and without the numbers of its page tables. -/
def context (pcb : Pcb) : Pcb :=
  { pcb with
    status := .new
    segmentTable := pcb.segmentTable.map fun segment => { segment with indexPage := -1 } }

/-- The bytes of the pages of a process, by segment, page and offset. -/
abbrev Bytes := ℤ → ℤ → ℕ → UInt8

structure Computer where
  context : Pcb
  memory : Bytes

/-- What happens to a process: it is created, its pages get their first bytes,
it executes an instruction, its console types a value for a register. -/
inductive Task where
  | create (pcb : Pcb)
  | fill (memory : Bytes)
  | execute
  | type (register : String) (value : UInt32)

def recalled (memory : Bytes) (params : LogicalAddressParameters) : UInt32 :=
  loadWord (memory params.segmentNumber params.pageNum) params.pageOffset.toNat

def afterAccess (memory : Bytes) : Option LogicalAccess → Bytes
  | some (.store params value) => fun segment page =>
    if segment = params.segmentNumber ∧ page = params.pageNum then
      storeWord (memory segment page) params.pageOffset.toNat value
    else memory segment page
  | _ => memory

def afterEffect (c : Computer) (eff : Effect) : Computer where
  context := { updateProgramCounter c.context with cpuRegisters := eff.registers }
  memory := afterAccess c.memory eff.access

def typed (c : Computer) (register : String) (value : UInt32) : Computer :=
  { c with context := { c.context with
      cpuRegisters := storeValueInRegister c.context.cpuRegisters register value } }

/-- There is no computer before its process is created. -/
def compute (cfg : CpuConfig) : Option Computer → Task → Option (Option Computer)
  | none, .create pcb => some (some ⟨context pcb, fun _ _ _ => 0⟩)
  | some c, .fill memory => some (some { c with memory := memory })
  | some c, .execute => do
    let line ← fetchNextInstructionToExecute c.context
    let eff ← effect cfg (recalled c.memory) c.context.cpuRegisters c.context (decode cfg line)
    some (some (afterEffect c eff))
  | some c, .type register value => some (some (typed c register value))
  | _, _ => none

@[simp] theorem after_no_access (memory : Bytes) : afterAccess memory none = memory := rfl

@[simp] theorem after_load (memory : Bytes) (params : LogicalAddressParameters) (value : UInt32) :
    afterAccess memory (some (.load params value)) = memory := rfl

@[simp] theorem context_status (pcb : Pcb) (status : PcbStatus) :
    context (changePcbStateTo pcb status) = context pcb := rfl

@[simp] theorem context_process (pcb : Pcb) : (context pcb).processId = pcb.processId := rfl

theorem context_process_eq {p q : Pcb} (h : context p = context q) : p.processId = q.processId := by
  simpa using congrArg Pcb.processId h

section Translation
variable {cfg : CpuConfig} {a : ℤ} {pcb : Pcb}

theorem translate_context (cfg : CpuConfig) (a : ℤ) (pcb : Pcb) :
    translateLogicalAddress cfg a (context pcb) = translateLogicalAddress cfg a pcb := by
  simp only [translateLogicalAddress, context, listGet, List.getElem?_map]
  split
  · cases pcb.segmentTable[(a.tdiv (cfg.entradasPorTabla*cfg.tamPagina)).toNat]? <;> rfl
  · rfl

theorem effect_context (recalled : LogicalAddressParameters → UInt32) (r : Registers)
    (instruction : List String) :
    effect cfg recalled r (context pcb) instruction = effect cfg recalled r pcb instruction := by
  simp only [effect, translate_context]

end Translation

section Instructions
variable {cfg : CpuConfig} {answers : Answers} {cpu cpu' : Cpu} {pcb : Pcb}

/-- No translation of the instruction gives the address that stands for none. -/
def Addresses (cfg : CpuConfig) (answers : Answers) (cpu : Cpu) (pcb : Pcb)
    (instruction : List String) : Prop :=
  ∀ a params tlb, movAddress instruction = some a →
    translateLogicalAddress cfg a pcb = some (params, false) →
    buildPhysicalAddress cfg cpu.tlb (some answers.frame) answers.times params pcb ≠
      some (-1, tlb, false)

/-- A `MOV` that does not fault is outside its segment or has accessed memory. -/
theorem with_address_access {a : ℤ}
    {access : Cpu → LogicalAddressParameters → ℤ → Option (Cpu × Option Access)}
    {made : Option Access} (hclear : cpu.sigsegv = false)
    (haddress : ∀ params tlb, translateLogicalAddress cfg a pcb = some (params, false) →
      buildPhysicalAddress cfg cpu.tlb (some answers.frame) answers.times params pcb ≠
        some (-1, tlb, false))
    (haccess : ∀ c params address c' m, access c params address = some (c', m) →
      c'.pageFault = c.pageFault)
    (hfault : cpu'.pageFault = false)
    (h : withAddress cfg answers cpu pcb a access = some (cpu', made)) :
    ∃ params outside, translateLogicalAddress cfg a pcb = some (params, outside) ∧
      (outside = true ∧ cpu' = { cpu with sigsegv := true } ∧ made = none ∨
        outside = false ∧ ∃ address tlb, buildPhysicalAddress cfg cpu.tlb (some answers.frame)
            answers.times params pcb = some (address, tlb, false) ∧
          access { cpu with tlb := tlb } params address = some (cpu', made)) := by
  cases with_address_some h with
  | outside params translated => exact ⟨params, true, translated, Or.inl ⟨rfl, rfl, rfl⟩⟩
  | ended params translated before => simp [hclear] at before
  | nowhere params tlb fault translated built =>
    cases fault with
    | true => simp [lookedUp, faulted] at hfault
    | false => exact absurd built (haddress params tlb translated)
  | reaches params tlb fault address translated built real cpu' made accessed =>
    cases fault with
    | true => simp [haccess _ _ _ _ _ accessed, lookedUp, faulted] at hfault
    | false => exact ⟨params, false, translated, Or.inr ⟨rfl, address, tlb, built, accessed⟩⟩

/-- An instruction that completes has its effect, if memory sent what is recalled. -/
theorem instruction_effect {recalled : LogicalAddressParameters → UInt32}
    {instruction : List String} {made : Option Access} (hclear : cpu.sigsegv = false)
    (haddress : Addresses cfg answers cpu pcb instruction)
    (hload : ∀ params address value, made = some (.load params address value) →
      value = recalled params) (hfault : cpu'.pageFault = false)
    (h : executeInstruction cfg answers cpu pcb instruction = some (cpu', made)) :
    ∃ eff, effect cfg recalled cpu.registers pcb instruction = some eff ∧
      cpu'.registers = eff.registers ∧ made.map logicalAccess = eff.access := by
  simp only [executeInstruction, Option.bind_eq_bind, Option.bind_eq_some_iff] at h
  obtain ⟨name, hname, h⟩ := h
  cases hkey : keyfromstring name with
  | set | add | io =>
    simp only [hkey, Option.bind_eq_some_iff, Option.some.injEq, Prod.mk.injEq] at h
    obtain ⟨_, h1, _, h2, rfl, rfl⟩ := h
    simp [effect, hname, hkey, h1, h2]
  | exit | badkey =>
    simp only [hkey, Option.some.injEq, Prod.mk.injEq] at h
    obtain ⟨rfl, rfl⟩ := h
    simp [effect, hname, hkey]
  | movIn =>
    simp only [hkey, Option.bind_eq_some_iff] at h
    obtain ⟨register, h1, logicalAddress, h2, h⟩ := h
    have hmov : movAddress instruction = some (atoi logicalAddress) := by
      simp [movAddress, hname, hkey, h2]
    obtain ⟨params, outside, ht, ⟨rfl, rfl, rfl⟩ | ⟨rfl, address, tlb, -, haccess⟩⟩ :=
      with_address_access hclear (fun params tlb => haddress _ params tlb hmov)
        (fun _ _ _ _ _ => mov_in_access_fault) hfault h
    · simp [effect, hname, hkey, h1, h2, ht, movEffect]
    · obtain ⟨value, -, rfl, rfl⟩ := mov_in_access_some haccess
      simp [effect, hname, hkey, h1, h2, ht, movEffect, hload params address value rfl,
        logicalAccess]
  | movOut =>
    simp only [hkey, Option.bind_eq_some_iff] at h
    obtain ⟨logicalAddress, h1, register, h2, h⟩ := h
    have hmov : movAddress instruction = some (atoi logicalAddress) := by
      simp [movAddress, hname, hkey, h1]
    obtain ⟨params, outside, ht, ⟨rfl, rfl, rfl⟩ | ⟨rfl, address, tlb, -, haccess⟩⟩ :=
      with_address_access hclear (fun params tlb => haddress _ params tlb hmov)
        (fun _ _ _ _ _ => mov_out_access_fault) hfault h
    · simp [effect, hname, hkey, h1, h2, ht, movEffect]
    · obtain ⟨-, rfl, rfl⟩ := mov_out_access_some haccess
      simp [effect, hname, hkey, h1, h2, ht, movEffect, logicalAccess]

/-- An access that is made is the one the instruction asks for, at its own address. -/
theorem instruction_access {instruction : List String} {access : Access} (hclear : cpu.sigsegv = false)
    (haddress : Addresses cfg answers cpu pcb instruction) (hfault : cpu'.pageFault = false)
    (h : executeInstruction cfg answers cpu pcb instruction = some (cpu', some access)) :
    ∃ a params address tlb, movAddress instruction = some a ∧
      translateLogicalAddress cfg a pcb = some (params, false) ∧
      buildPhysicalAddress cfg cpu.tlb (some answers.frame) answers.times params pcb =
        some (address, tlb, false) ∧
      ((∃ value, access = .load params address value ∧ answers.value = .movInOk value) ∨
        ∃ value row, access = .store params address value ∧
          listGet pcb.segmentTable params.segmentNumber = some row) := by
  simp only [executeInstruction, Option.bind_eq_bind, Option.bind_eq_some_iff] at h
  obtain ⟨name, hname, h⟩ := h
  cases hkey : keyfromstring name with
  | set | add | io => simp [hkey, Option.bind_eq_some_iff] at h
  | exit | badkey => simp [hkey] at h
  | movIn =>
    simp only [hkey, Option.bind_eq_some_iff] at h
    obtain ⟨register, h1, logicalAddress, h2, h⟩ := h
    have hmov : movAddress instruction = some (atoi logicalAddress) := by
      simp [movAddress, hname, hkey, h2]
    obtain ⟨params, outside, ht, ⟨-, -, hnone⟩ | ⟨rfl, address, tlb, hbuild, haccess⟩⟩ :=
      with_address_access hclear (fun params tlb => haddress _ params tlb hmov)
        (fun _ _ _ _ _ => mov_in_access_fault) hfault h
    · simp at hnone
    · obtain ⟨value, hvalue, heq, -⟩ := mov_in_access_some haccess
      exact ⟨_, params, address, tlb, hmov, ht, hbuild, Or.inl ⟨value, Option.some.inj heq, hvalue⟩⟩
  | movOut =>
    simp only [hkey, Option.bind_eq_some_iff] at h
    obtain ⟨logicalAddress, h1, register, h2, h⟩ := h
    have hmov : movAddress instruction = some (atoi logicalAddress) := by
      simp [movAddress, hname, hkey, h1]
    obtain ⟨params, outside, ht, ⟨-, -, hnone⟩ | ⟨rfl, address, tlb, hbuild, haccess⟩⟩ :=
      with_address_access hclear (fun params tlb => haddress _ params tlb hmov)
        (fun _ _ _ _ _ => mov_out_access_fault) hfault h
    · simp at hnone
    · obtain ⟨⟨row, hrow⟩, heq, -⟩ := mov_out_access_some haccess
      exact ⟨_, params, address, tlb, hmov, ht, hbuild,
        Or.inr ⟨_, row, Option.some.inj heq, hrow⟩⟩

end Instructions

end Geck.PrivateComputer
