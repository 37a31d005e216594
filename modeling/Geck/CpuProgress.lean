import Geck.CpuFlags

/-!
# The CPU always takes its next turn

A well-formed instruction executes on any TLB of its full size, whatever memory
answers to it, and an instruction that does not stop the process moves the
program counter on.
-/

set_option autoImplicit false

namespace Geck.CpuProgress
open Geck.BlockStore Geck.SharedPcb Geck.MemoryHandlers Geck.CpuTranslation Geck.CpuExecution
open Geck.CpuEffects Geck.CpuFlags

def operands : InstructionKey → ℕ
  | .exit => 0
  | .badkey => 0
  | _ => 2

/-- The instruction has its operands and addresses an existing segment. -/
structure WellFormed (cfg : CpuConfig) (pcb : Pcb) (instruction : List String) : Prop where
  name : ∃ name, instruction[0]? = some name ∧ operands (keyfromstring name) < instruction.length
  segment : ∀ a, movAddress instruction = some a →
    ∃ segment, listGet pcb.segmentTable (a.tdiv (cfg.entradasPorTabla*cfg.tamPagina)) = some segment

/-- The program counter is inside the instruction list and the instruction is well formed. -/
def Executable (cfg : CpuConfig) (pcb : Pcb) : Prop :=
  ∃ line, fetchNextInstructionToExecute pcb = some line ∧ WellFormed cfg pcb (decode cfg line)

/-- Memory answers each request with one of the answers to it. -/
structure Answered (answers : Answers) : Prop where
  frame : ∃ frame, answers.frame = .frameResponse frame ∨ answers.frame = .pageFault frame
  value : ∃ value, answers.value = .movInOk value

section Instruction
variable {cfg : CpuConfig} {answers : Answers} {cpu : Cpu} {pcb : Pcb}

theorem build_physical_address_proceeds {tlb : List RowTlb} (htlb : cfg.entradasTlb ≤ tlb.length)
    (ha : Answered answers) (params : LogicalAddressParameters) (pcb : Pcb) :
    ∃ result, buildPhysicalAddress cfg tlb (some answers.frame) answers.times params pcb =
      some result := by
  obtain ⟨frame, tlb', hfind, -, -⟩ := present_in_tlb_found cfg tlb params.pageNum
    params.segmentNumber pcb.processId answers.times.lookup htlb
  obtain ⟨asked, hasked⟩ := ha.frame
  by_cases hframe : frame = -1
  · rcases hasked with h | h
    · by_cases hnone : asked = -1 <;> simp [buildPhysicalAddress, hfind, hframe, h, findFrame, hnone]
    · by_cases hnone : asked = -1 <;> simp [buildPhysicalAddress, hfind, hframe, h, findFrame, hnone]
  · simp [buildPhysicalAddress, hfind, hframe]

theorem translate_proceeds {a : ℤ} {segment : Segment}
    (h : listGet pcb.segmentTable (a.tdiv (cfg.entradasPorTabla*cfg.tamPagina)) = some segment) :
    ∃ params outside, translateLogicalAddress cfg a pcb = some (params, outside) ∧
      listGet pcb.segmentTable params.segmentNumber = some segment := by
  simp only [translateLogicalAddress, h, Option.bind_eq_bind, Option.bind_some]
  exact ⟨_, _, rfl, h⟩

theorem with_address_proceeds {a : ℤ} (htlb : cfg.entradasTlb ≤ cpu.tlb.length)
    (ha : Answered answers) {params : LogicalAddressParameters} {outside : Bool}
    (ht : translateLogicalAddress cfg a pcb = some (params, outside))
    {access : Cpu → LogicalAddressParameters → ℤ → Option (Cpu × Option Access)}
    (haccess : ∀ cpu address, ∃ result, access cpu params address = some result) :
    ∃ result, withAddress cfg answers cpu pcb a access = some result := by
  obtain ⟨⟨address, tlb, fault⟩, hbuild⟩ := build_physical_address_proceeds htlb ha params pcb
  cases outside with
  | true => simp [withAddress, ht]
  | false =>
    cases hseg : cpu.sigsegv with
    | true => simp [withAddress, ht, hseg]
    | false =>
      simp only [withAddress, ht, hseg, hbuild, Option.bind_eq_bind, Option.bind_some,
        Bool.false_eq_true, if_false]
      split
      · exact ⟨_, rfl⟩
      · exact haccess _ _

theorem execute_instruction_proceeds {instruction : List String}
    (hform : WellFormed cfg pcb instruction) (htlb : cfg.entradasTlb ≤ cpu.tlb.length)
    (ha : Answered answers) :
    ∃ result, executeInstruction cfg answers cpu pcb instruction = some result := by
  obtain ⟨name, hname, hlength⟩ := hform.name
  have hsegment := hform.segment
  cases hkey : keyfromstring name with
  | exit => simp [executeInstruction, hname, hkey]
  | badkey => simp [executeInstruction, hname, hkey]
  | set | add | io =>
    simp only [hkey, operands] at hlength
    simp [executeInstruction, hname, hkey, hlength, (by omega : 1 < instruction.length)]
  | movIn | movOut =>
    simp only [hkey, operands] at hlength
    have h1 : instruction[1]? = some instruction[1] := List.getElem?_eq_getElem (by omega)
    have h2 : instruction[2]? = some instruction[2] := List.getElem?_eq_getElem hlength
    simp only [movAddress, hname, hkey, h1, h2, Option.bind_eq_bind, Option.bind_some,
      Option.map_some, Option.some.injEq, forall_eq'] at hsegment
    obtain ⟨segment, hsegment⟩ := hsegment
    obtain ⟨params, outside, ht, hlisted⟩ := translate_proceeds hsegment
    obtain ⟨value, hvalue⟩ := ha.value
    simp only [executeInstruction, hname, hkey, h1, h2, Option.bind_eq_bind, Option.bind_some]
    apply with_address_proceeds htlb ha ht
    intro cpu address
    simp [movInAccess, movOutAccess, hvalue, hlisted]

/-- The turn of the loop is not refused. -/
theorem instruction_cycle_proceeds (hexec : Executable cfg pcb)
    (htlb : cfg.entradasTlb ≤ cpu.tlb.length) (ha : Answered answers) :
    ∃ result, instructionCycle cfg answers cpu pcb = some result := by
  obtain ⟨line, hline, hform⟩ := hexec
  obtain ⟨⟨cpu', access⟩, hexecute⟩ := execute_instruction_proceeds hform htlb ha
  simp [instructionCycle, hline, hexecute]

/-- The turn leaves the list of instructions as it is and moves on, unless it faulted. -/
theorem instruction_cycle_counter {cpu' : Cpu} {pcb' : Pcb} {access : Option Access}
    (h : instructionCycle cfg answers cpu pcb = some (cpu', pcb', access)) :
    pcb'.instructions = pcb.instructions ∧ pcb.programCounter < pcb.instructions.length ∧
      (cpu'.pageFault = true ∨ pcb'.programCounter = pcb.programCounter+1) := by
  simp only [instructionCycle, Option.bind_eq_bind, Option.bind_eq_some_iff] at h
  obtain ⟨line, hline, ⟨_, _⟩, _, h⟩ := h
  simp only [Option.some.injEq, Prod.mk.injEq] at h
  obtain ⟨rfl, rfl, _⟩ := h
  refine ⟨?_, (list_get_lt hline).2, ?_⟩
  · split <;> rfl
  · split
    next hfault => exact Or.inl hfault
    next => exact Or.inr rfl

end Instruction

section Tlb
variable {cfg : CpuConfig} {answers : Answers} {cpu cpu' : Cpu} {pcb : Pcb}

theorem build_physical_address_enough (hsort : Sorts cfg) {tlb tlb' : List RowTlb}
    {params : LogicalAddressParameters} {address : ℤ} {fault : Bool}
    (htlb : cfg.entradasTlb ≤ tlb.length)
    (h : buildPhysicalAddress cfg tlb (some answers.frame) answers.times params pcb =
      some (address, tlb', fault)) : cfg.entradasTlb ≤ tlb'.length := by
  obtain ⟨frame, found, hfind, hsame, -⟩ := present_in_tlb_found cfg tlb params.pageNum
    params.segmentNumber pcb.processId answers.times.lookup htlb
  have hfound : cfg.entradasTlb ≤ found.length := by
    have := congrArg List.length hsame
    simp only [List.length_map] at this
    omega
  simp only [buildPhysicalAddress, hfind, Option.bind_eq_bind, Option.bind_some] at h
  split at h
  · simp only [Option.bind_eq_some_iff] at h
    obtain ⟨⟨asked, raised⟩, -, h⟩ := h
    split at h
    · simp only [Option.some.injEq, Prod.mk.injEq] at h
      obtain ⟨-, rfl, -⟩ := h
      exact add_to_tlb_enough hsort _ _ _ _ _ _ hfound
    · simp only [Option.some.injEq, Prod.mk.injEq] at h
      obtain ⟨-, rfl, -⟩ := h
      exact hfound
  · simp only [Option.some.injEq, Prod.mk.injEq] at h
    obtain ⟨-, rfl, -⟩ := h
    exact hfound

theorem with_address_enough (hsort : Sorts cfg) {a : ℤ}
    {access : Cpu → LogicalAddressParameters → ℤ → Option (Cpu × Option Access)}
    (haccess : ChangesRegisters access) (htlb : cfg.entradasTlb ≤ cpu.tlb.length)
    {made : Option Access} (h : withAddress cfg answers cpu pcb a access = some (cpu', made)) :
    cfg.entradasTlb ≤ cpu'.tlb.length := by
  cases with_address_some h with
  | outside params translated => exact htlb
  | ended params translated before => exact htlb
  | nowhere params tlb fault translated built =>
    have hbuilt := build_physical_address_enough hsort htlb built
    cases fault <;> exact hbuilt
  | reaches params tlb fault address translated built real cpu' made accessed =>
    have hbuilt := build_physical_address_enough hsort htlb built
    obtain ⟨r, rfl⟩ := haccess _ _ _ _ _ accessed
    cases fault <;> exact hbuilt

theorem execute_instruction_enough (hsort : Sorts cfg) {instruction : List String}
    (htlb : cfg.entradasTlb ≤ cpu.tlb.length) {made : Option Access}
    (h : executeInstruction cfg answers cpu pcb instruction = some (cpu', made)) :
    cfg.entradasTlb ≤ cpu'.tlb.length := by
  simp only [executeInstruction, Option.bind_eq_bind, Option.bind_eq_some_iff] at h
  obtain ⟨name, -, h⟩ := h
  cases hkey : keyfromstring name with
  | set | add | io =>
    simp only [hkey, Option.bind_eq_some_iff, Option.some.injEq, Prod.mk.injEq] at h
    obtain ⟨_, -, _, -, rfl, -⟩ := h
    exact htlb
  | movIn =>
    simp only [hkey, Option.bind_eq_some_iff] at h
    obtain ⟨_, -, _, -, h⟩ := h
    exact with_address_enough hsort (mov_in_access_registers _ _) htlb h
  | movOut =>
    simp only [hkey, Option.bind_eq_some_iff] at h
    obtain ⟨_, -, _, -, h⟩ := h
    exact with_address_enough hsort (mov_out_access_registers _ _) htlb h
  | exit | badkey =>
    simp only [hkey, Option.some.injEq, Prod.mk.injEq] at h
    obtain ⟨rfl, -⟩ := h
    exact htlb

/-- The TLB stays as large as a lookup needs. -/
theorem instruction_cycle_enough (hsort : Sorts cfg) {pcb' : Pcb}
    (htlb : cfg.entradasTlb ≤ cpu.tlb.length) {made : Option Access}
    (h : instructionCycle cfg answers cpu pcb = some (cpu', pcb', made)) :
    cfg.entradasTlb ≤ cpu'.tlb.length := by
  simp only [instructionCycle, Option.bind_eq_bind, Option.bind_eq_some_iff] at h
  obtain ⟨_, _, ⟨_, _⟩, hexec, h⟩ := h
  simp only [Option.some.injEq, Prod.mk.injEq] at h
  obtain ⟨rfl, _⟩ := h
  exact execute_instruction_enough hsort htlb hexec

theorem leave_process_tlb (cpu : Cpu) (pcb : Pcb) : (leaveProcess cpu pcb).1.tlb = cpu.tlb := by
  unfold leaveProcess
  repeat' split
  all_goals rfl

end Tlb

end Geck.CpuProgress
