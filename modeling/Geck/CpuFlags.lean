import Geck.CpuEffects

/-!
# The flags of the CPU, whatever memory answers

An instruction raises at most one of the flags that stop the cycle and leaves
`check_interruption` alone; the tests after the loop then send one package and
clear every flag. Nothing is assumed of the program, of the TLB or of memory.
-/

set_option autoImplicit false

namespace Geck.CpuFlags
open Geck.BlockStore Geck.SharedPcb Geck.MemoryHandlers Geck.CpuTranslation Geck.CpuExecution
open Geck.CpuEffects

/-- At most one of the four synchronous flags is set. -/
def Exclusive (cpu : Cpu) : Prop :=
  (cpu.pageFault = true ∧ Raised cpu none) ∨ (cpu.pageFault = false ∧ ∃ stop, Raised cpu stop)

/-- All five flags are down, but for the interruption. -/
def Clear (cpu : Cpu) : Prop := Raised cpu none ∧ cpu.pageFault = false

theorem Clear.exclusive {cpu : Cpu} (h : Clear cpu) : Exclusive cpu := Or.inr ⟨h.2, none, h.1⟩

theorem clear_of_running {cpu : Cpu} (h : keepsRunning cpu = true) : Clear cpu := by
  simp only [keepsRunning, Bool.and_eq_true, Bool.not_eq_true'] at h
  obtain ⟨⟨⟨⟨_, he⟩, hi⟩, hf⟩, hs⟩ := h
  exact ⟨⟨he, hi, hs⟩, hf⟩

/-- An access changes registers only. -/
def ChangesRegisters (access : Cpu → LogicalAddressParameters → ℤ → Option (Cpu × Option Access)) :
    Prop :=
  ∀ cpu params address cpu' made, access cpu params address = some (cpu', made) →
    ∃ r, cpu' = { cpu with registers := r }

theorem mov_in_access_registers (answers : Answers) (register : String) :
    ChangesRegisters (movInAccess answers register) := by
  intro cpu params address cpu' made h
  cases hv : answers.value <;> simp [movInAccess, hv] at h
  exact ⟨_, h.1.symm⟩

theorem mov_out_access_registers (pcb : Pcb) (register : String) :
    ChangesRegisters (movOutAccess pcb register) := by
  intro cpu params address cpu' made h
  simp only [movOutAccess, Option.bind_eq_bind, Option.bind_eq_some_iff, Option.some.injEq,
    Prod.mk.injEq] at h
  obtain ⟨_, _, rfl, _⟩ := h
  exact ⟨cpu.registers, rfl⟩

theorem with_address_flags {cfg : CpuConfig} {answers : Answers} {cpu cpu' : Cpu} {pcb : Pcb} {a : ℤ}
    {access : Cpu → LogicalAddressParameters → ℤ → Option (Cpu × Option Access)}
    (haccess : ChangesRegisters access) (hclear : Clear cpu) {made : Option Access}
    (h : withAddress cfg answers cpu pcb a access = some (cpu', made)) :
    cpu'.checkInterruption = cpu.checkInterruption ∧ Exclusive cpu' := by
  obtain ⟨⟨hend, hio, hseg⟩, hfault⟩ := hclear
  cases with_address_some h with
  | outside params translated => exact ⟨rfl, Or.inr ⟨hfault, some .sigsegv, hend, hio, rfl, hfault⟩⟩
  | ended params translated before => simp [hseg] at before
  | nowhere params tlb fault translated built =>
    cases fault with
    | true => exact ⟨rfl, Or.inl ⟨rfl, hend, hio, hseg⟩⟩
    | false => exact ⟨rfl, Or.inr ⟨hfault, none, hend, hio, hseg⟩⟩
  | reaches params tlb fault address translated built real cpu' made accessed =>
    obtain ⟨r, rfl⟩ := haccess _ _ _ _ _ accessed
    cases fault with
    | true => exact ⟨rfl, Or.inl ⟨rfl, hend, hio, hseg⟩⟩
    | false => exact ⟨rfl, Or.inr ⟨hfault, none, hend, hio, hseg⟩⟩

theorem execute_instruction_flags {cfg : CpuConfig} {answers : Answers} {cpu cpu' : Cpu} {pcb : Pcb}
    {instruction : List String} {made : Option Access} (hclear : Clear cpu)
    (h : executeInstruction cfg answers cpu pcb instruction = some (cpu', made)) :
    cpu'.checkInterruption = cpu.checkInterruption ∧ Exclusive cpu' := by
  obtain ⟨⟨hend, hio, hseg⟩, hfault⟩ := hclear
  simp only [executeInstruction, Option.bind_eq_bind, Option.bind_eq_some_iff] at h
  obtain ⟨name, -, h⟩ := h
  cases hkey : keyfromstring name with
  | set | add =>
    simp only [hkey, Option.bind_eq_some_iff, Option.some.injEq, Prod.mk.injEq] at h
    obtain ⟨_, -, _, -, rfl, -⟩ := h
    exact ⟨rfl, Or.inr ⟨hfault, none, hend, hio, hseg⟩⟩
  | io =>
    simp only [hkey, Option.bind_eq_some_iff, Option.some.injEq, Prod.mk.injEq] at h
    obtain ⟨device, -, parameter, -, rfl, -⟩ := h
    exact ⟨rfl, Or.inr ⟨hfault, some (.inputOuput device parameter), hend, rfl, hseg, hfault, rfl,
      rfl⟩⟩
  | movIn =>
    simp only [hkey, Option.bind_eq_some_iff] at h
    obtain ⟨_, -, _, -, h⟩ := h
    exact with_address_flags (mov_in_access_registers _ _) ⟨⟨hend, hio, hseg⟩, hfault⟩ h
  | movOut =>
    simp only [hkey, Option.bind_eq_some_iff] at h
    obtain ⟨_, -, _, -, h⟩ := h
    exact with_address_flags (mov_out_access_registers _ _) ⟨⟨hend, hio, hseg⟩, hfault⟩ h
  | exit =>
    simp only [hkey, Option.some.injEq, Prod.mk.injEq] at h
    obtain ⟨rfl, -⟩ := h
    exact ⟨rfl, Or.inr ⟨hfault, some .endProcess, rfl, hio, hseg, hfault⟩⟩
  | badkey =>
    simp only [hkey, Option.some.injEq, Prod.mk.injEq] at h
    obtain ⟨rfl, -⟩ := h
    exact ⟨rfl, Or.inr ⟨hfault, none, hend, hio, hseg⟩⟩

theorem instruction_cycle_flags {cfg : CpuConfig} {answers : Answers} {cpu cpu' : Cpu}
    {pcb pcb' : Pcb} {made : Option Access} (hclear : Clear cpu)
    (h : instructionCycle cfg answers cpu pcb = some (cpu', pcb', made)) :
    cpu'.checkInterruption = cpu.checkInterruption ∧ Exclusive cpu' := by
  simp only [instructionCycle, Option.bind_eq_bind, Option.bind_eq_some_iff] at h
  obtain ⟨_, _, ⟨_, _⟩, hexec, h⟩ := h
  simp only [Option.some.injEq, Prod.mk.injEq] at h
  obtain ⟨rfl, _⟩ := h
  exact execute_instruction_flags hclear hexec

/-- The tests after the loop send one package and leave no flag set. -/
theorem leave_process_clears {cpu : Cpu} (hexclusive : Exclusive cpu)
    (hleave : keepsRunning cpu = false) (pcb : Pcb) :
    ∃ cpu' package, leaveProcess cpu pcb = (cpu', some package) ∧ Clear cpu' ∧
      cpu'.checkInterruption = false := by
  have hraised : ∃ stop, Raised cpu stop := by
    rcases hexclusive with ⟨_, h⟩ | ⟨_, h⟩
    · exact ⟨none, h⟩
    · exact h
  obtain ⟨stop, hraised⟩ := hraised
  exact ⟨_, _, leave_process_sends cpu pcb stop hraised hleave, ⟨⟨rfl, rfl, rfl⟩, rfl⟩, rfl⟩

end Geck.CpuFlags
