import Geck.CpuExecution

/-!
# What one instruction does

An instruction either faults, and then leaves the registers and the three other
flags as they were, or completes, and then its effect depends only on the
registers, the segment table and the value a load recalls: not on the TLB, on
frames or on the times read. At most one of the flags that stop the cycle is
raised.
-/

set_option autoImplicit false

namespace Geck.CpuEffects
open Geck.BlockStore Geck.SharedPcb Geck.MemoryHandlers Geck.CpuTranslation Geck.CpuExecution

/-- Why a process leaves the CPU for good or for a device. -/
inductive Stop where
  | endProcess
  | inputOuput (device parameter : String)
  | sigsegv
  deriving DecidableEq, Repr

/-- The synchronous flags other than `page_fault` say exactly this. -/
def Raised (cpu : Cpu) : Option Stop → Prop
  | none => cpu.endProcess = false ∧ cpu.inputOuput = false ∧ cpu.sigsegv = false
  | some .endProcess => cpu.endProcess = true ∧ cpu.inputOuput = false ∧ cpu.sigsegv = false ∧
      cpu.pageFault = false
  | some (.inputOuput device parameter) => cpu.endProcess = false ∧ cpu.inputOuput = true ∧
      cpu.sigsegv = false ∧ cpu.pageFault = false ∧ cpu.device = device ∧ cpu.parameter = parameter
  | some .sigsegv => cpu.endProcess = false ∧ cpu.inputOuput = false ∧ cpu.sigsegv = true ∧
      cpu.pageFault = false

/-- A load or store by its logical address. -/
inductive LogicalAccess where
  | load (params : LogicalAddressParameters) (value : UInt32)
  | store (params : LogicalAddressParameters) (value : UInt32)
  deriving DecidableEq, Repr

def logicalAccess : Access → LogicalAccess
  | .load params _ value => .load params value
  | .store params _ value => .store params value

structure Effect where
  registers : Registers
  stop : Option Stop
  access : Option LogicalAccess
  deriving DecidableEq, Repr

/-- The effect of a `MOV` whose access leaves the registers `r`. -/
def movEffect (before r : Registers) (outside : Bool) (access : LogicalAccess) : Effect :=
  if outside then ⟨before, some .sigsegv, none⟩ else ⟨r, none, some access⟩

/-- The effect of an instruction that completes, `recalled` being what memory
holds for the process at each address. -/
def effect (cfg : CpuConfig) (recalled : LogicalAddressParameters → UInt32) (r : Registers)
    (pcb : Pcb) (instruction : List String) : Option Effect := do
  let name ← instruction[0]?
  match keyfromstring name with
  | .set => do
    let register ← instruction[1]?
    let value ← instruction[2]?
    some ⟨addValueToRegister r register value, none, none⟩
  | .add => do
    let register ← instruction[1]?
    let source ← instruction[2]?
    some ⟨addTwoRegisters r register source, none, none⟩
  | .io => do
    let device ← instruction[1]?
    let parameter ← instruction[2]?
    some ⟨r, some (.inputOuput device parameter), none⟩
  | .movIn => do
    let register ← instruction[1]?
    let logicalAddress ← instruction[2]?
    let (params, outside) ← translateLogicalAddress cfg (atoi logicalAddress) pcb
    some (movEffect r (storeValueInRegister r register (recalled params)) outside
      (.load params (recalled params)))
  | .movOut => do
    let logicalAddress ← instruction[1]?
    let register ← instruction[2]?
    let (params, outside) ← translateLogicalAddress cfg (atoi logicalAddress) pcb
    some (movEffect r r outside (.store params (findValueOfRegister r register)))
  | .exit => some ⟨r, some .endProcess, none⟩
  | .badkey => some ⟨r, none, none⟩

/-- The logical address of a `MOV`. -/
def movAddress (instruction : List String) : Option ℤ := do
  let name ← instruction[0]?
  match keyfromstring name with
  | .movIn => instruction[2]?.map atoi
  | .movOut => instruction[1]?.map atoi
  | _ => none

structure Plausible (cfg : CpuConfig) (tlb : List RowTlb) : Prop where
  size : cfg.entradasTlb ≤ tlb.length
  frames : ∀ row ∈ tlb, -1 ≤ row.frame

/-- Memory answers a frame request with a frame or with a page fault and -1, and
a load with what the process stored. -/
structure Truthful (cfg : CpuConfig) (recalled : LogicalAddressParameters → UInt32) (pcb : Pcb)
    (instruction : List String) (answers : Answers) : Prop where
  frame : (∃ f, answers.frame = .frameResponse f ∧ 0 ≤ f) ∨ answers.frame = .pageFault (-1)
  value : ∀ a params, movAddress instruction = some a →
    translateLogicalAddress cfg a pcb = some (params, false) →
    (instruction[0]?).map keyfromstring = some .movIn → answers.value = .movInOk (recalled params)

theorem page_offset_nonneg {cfg : CpuConfig} {a : ℤ} {pcb : Pcb}
    {params : LogicalAddressParameters} {outside : Bool} (ha : 0 ≤ a)
    (h : translateLogicalAddress cfg a pcb = some (params, outside)) : 0 ≤ params.pageOffset := by
  simp only [translateLogicalAddress, Option.bind_eq_bind, Option.bind_eq_some_iff] at h
  obtain ⟨segment, _, h⟩ := h
  simp only [Option.some.injEq, Prod.mk.injEq] at h
  rw [← h.1]
  exact Int.tmod_nonneg _ (Int.tmod_nonneg _ ha)

theorem build_physical_address_cases {cfg : CpuConfig} (hsort : Sorts cfg) {tlb : List RowTlb}
    (hp : Plausible cfg tlb) {answers : Answers}
    (ha : (∃ f, answers.frame = .frameResponse f ∧ 0 ≤ f) ∨ answers.frame = .pageFault (-1))
    (params : LogicalAddressParameters) (hoff : 0 ≤ params.pageOffset) (pcb : Pcb) :
    ∃ tlb', Plausible cfg tlb' ∧
      ((answers.frame = .pageFault (-1) ∧ buildPhysicalAddress cfg tlb (some answers.frame)
          answers.times params pcb = some (-1, tlb', true)) ∨
        ∃ a, a ≠ -1 ∧ buildPhysicalAddress cfg tlb (some answers.frame) answers.times params pcb =
          some (a, tlb', false)) := by
  obtain ⟨frame, tlb', hfind, hsame, hmem⟩ := present_in_tlb_found cfg tlb params.pageNum
    params.segmentNumber pcb.processId answers.times.lookup hp.size
  have hframe {row : RowTlb} (hrow : row ∈ tlb') : -1 ≤ row.frame := by
    have hin : mapping row ∈ tlb.map mapping := hsame ▸ List.mem_map_of_mem hrow
    obtain ⟨old, hold, he⟩ := List.mem_map.mp hin
    simp only [mapping, Prod.mk.injEq] at he
    exact he.2.2.2 ▸ hp.frames old hold
  have hp' : Plausible cfg tlb' := by
    refine ⟨?_, fun row hrow => hframe hrow⟩
    have := congrArg List.length hsame
    simp only [List.length_map] at this
    rw [this]
    exact hp.size
  by_cases hne : frame = -1
  · subst hne
    obtain ⟨f, hf, h0⟩ | hf := ha
    · have hf' : f ≠ -1 := by omega
      refine ⟨addToTlb cfg tlb' pcb.processId params.segmentNumber params.pageNum f
        answers.times.added, ⟨add_to_tlb_enough hsort _ _ _ _ _ _ hp'.size, fun row hrow => ?_⟩,
        Or.inr ⟨f*cfg.tamPagina+params.pageOffset, ?_, ?_⟩⟩
      · obtain hrow | rfl := add_to_tlb_mem hsort hrow
        · exact hp'.frames row hrow
        · simp only [newRow]
          omega
      · have : 0 ≤ f*cfg.tamPagina := by positivity
        omega
      · simp [buildPhysicalAddress, hfind, hf, findFrame, hf']
    · exact ⟨tlb', hp', Or.inl ⟨hf, by simp [buildPhysicalAddress, hfind, hf, findFrame]⟩⟩
  · obtain ⟨old, hold, he⟩ := List.mem_map.mp (hmem.resolve_left hne)
    simp only [mapping, Prod.mk.injEq] at he
    have hge := he.2.2.2 ▸ hp.frames old hold
    have : 0 ≤ frame*cfg.tamPagina := by
      have : 0 ≤ frame := by omega
      positivity
    refine ⟨tlb', hp', Or.inr ⟨calculatePhysicalAddress frame params.pageOffset cfg.tamPagina, ?_, ?_⟩⟩
    · unfold calculatePhysicalAddress
      omega
    · simp [buildPhysicalAddress, hfind, hne]

/-- The state after a page fault of a `MOV`. -/
def faulted (cpu : Cpu) (tlb : List RowTlb) (params : LogicalAddressParameters) : Cpu :=
  { cpu with
    tlb := tlb
    pageFault := true
    numeroSegmentoGlobalPageFault := params.segmentNumber
    numeroPaginaGlobalPageFault := params.pageNum }

/-- The state in which a `MOV` has looked for its frame. -/
def lookedUp (cpu : Cpu) (tlb : List RowTlb) (fault : Bool) (params : LogicalAddressParameters) :
    Cpu :=
  if fault then faulted cpu tlb params else { cpu with tlb := tlb }

/-- How a `MOV` ends: outside its segment, after an earlier segmentation fault, without a
physical address, or with the access. -/
inductive Addressed (cfg : CpuConfig) (answers : Answers) (cpu : Cpu) (pcb : Pcb) (a : ℤ)
    (access : Cpu → LogicalAddressParameters → ℤ → Option (Cpu × Option Access)) :
    Cpu → Option Access → Prop
  | outside (params : LogicalAddressParameters)
      (translated : translateLogicalAddress cfg a pcb = some (params, true)) :
      Addressed cfg answers cpu pcb a access { cpu with sigsegv := true } none
  | ended (params : LogicalAddressParameters)
      (translated : translateLogicalAddress cfg a pcb = some (params, false))
      (before : cpu.sigsegv = true) : Addressed cfg answers cpu pcb a access cpu none
  | nowhere (params : LogicalAddressParameters) (tlb : List RowTlb) (fault : Bool)
      (translated : translateLogicalAddress cfg a pcb = some (params, false))
      (built : buildPhysicalAddress cfg cpu.tlb (some answers.frame) answers.times params pcb =
        some (-1, tlb, fault)) :
      Addressed cfg answers cpu pcb a access (lookedUp cpu tlb fault params) none
  | reaches (params : LogicalAddressParameters) (tlb : List RowTlb) (fault : Bool) (address : ℤ)
      (translated : translateLogicalAddress cfg a pcb = some (params, false))
      (built : buildPhysicalAddress cfg cpu.tlb (some answers.frame) answers.times params pcb =
        some (address, tlb, fault)) (real : address ≠ -1) (cpu' : Cpu) (made : Option Access)
      (accessed : access (lookedUp cpu tlb fault params) params address = some (cpu', made)) :
      Addressed cfg answers cpu pcb a access cpu' made

theorem with_address_some {cfg : CpuConfig} {answers : Answers} {cpu cpu' : Cpu} {pcb : Pcb} {a : ℤ}
    {access : Cpu → LogicalAddressParameters → ℤ → Option (Cpu × Option Access)}
    {made : Option Access} (h : withAddress cfg answers cpu pcb a access = some (cpu', made)) :
    Addressed cfg answers cpu pcb a access cpu' made := by
  simp only [withAddress, Option.bind_eq_bind, Option.bind_eq_some_iff] at h
  obtain ⟨⟨params, outside⟩, ht, h⟩ := h
  cases outside with
  | true =>
    simp only [if_true, Option.some.injEq, Prod.mk.injEq] at h
    obtain ⟨rfl, rfl⟩ := h
    exact .outside params ht
  | false =>
    simp only [Bool.false_eq_true, if_false] at h
    by_cases hseg : cpu.sigsegv = true
    · rw [if_pos hseg, Option.some.injEq, Prod.mk.injEq] at h
      obtain ⟨rfl, rfl⟩ := h
      exact .ended params ht hseg
    · rw [if_neg hseg, Option.bind_eq_some_iff] at h
      obtain ⟨⟨address, tlb, fault⟩, hb, h⟩ := h
      by_cases haddress : address = -1
      · rw [if_pos haddress, Option.some.injEq, Prod.mk.injEq] at h
        obtain ⟨rfl, rfl⟩ := h
        subst haddress
        exact .nowhere params tlb fault ht hb
      · rw [if_neg haddress] at h
        exact .reaches params tlb fault address ht hb haddress _ _ h

/-- Only memory's answer raises a page fault. -/
theorem build_physical_address_answer {cfg : CpuConfig} {tlb tlb' : List RowTlb} {answers : Answers}
    {params : LogicalAddressParameters} {pcb : Pcb} {address : ℤ}
    (h : buildPhysicalAddress cfg tlb (some answers.frame) answers.times params pcb =
      some (address, tlb', true)) : ∃ n, answers.frame = .pageFault n := by
  simp only [buildPhysicalAddress, Option.bind_eq_bind, Option.bind_eq_some_iff] at h
  obtain ⟨⟨frame, visited⟩, -, h⟩ := h
  split at h
  · obtain ⟨response, hresponse, ⟨found, fault⟩, hfound, h⟩ := by
      simpa only [Option.bind_eq_some_iff] using h
    obtain rfl := Option.some.inj hresponse
    have hfault : fault = true := by
      split at h <;> simp only [Option.some.injEq, Prod.mk.injEq] at h <;> exact h.2.2
    cases hframe : answers.frame with
    | pageFault n => exact ⟨n, rfl⟩
    | frameResponse n =>
      simp only [hframe, findFrame, Option.some.injEq, Prod.mk.injEq] at hfound
      rw [← hfound.2] at hfault
      cases hfault
    | configMemory _ _ | movOutOk | movInOk _ => simp [hframe, findFrame] at hfound
  · simp at h

/-- A `MOV` stops at a segmentation fault, stops at a page fault, or accesses memory. -/
theorem with_address_cases {cfg : CpuConfig} (hsort : Sorts cfg) {cpu : Cpu}
    (hp : Plausible cfg cpu.tlb) (hclear : cpu.sigsegv = false) {answers : Answers}
    (ha : (∃ f, answers.frame = .frameResponse f ∧ 0 ≤ f) ∨ answers.frame = .pageFault (-1))
    {pcb : Pcb} {a : ℤ} (h0 : 0 ≤ a) {params : LogicalAddressParameters} {outside : Bool}
    (ht : translateLogicalAddress cfg a pcb = some (params, outside))
    (access : Cpu → LogicalAddressParameters → ℤ → Option (Cpu × Option Access)) :
    (outside = true ∧ withAddress cfg answers cpu pcb a access =
      some ({ cpu with sigsegv := true }, none)) ∨
    (outside = false ∧ ∃ tlb, Plausible cfg tlb ∧
      ((answers.frame = .pageFault (-1) ∧ withAddress cfg answers cpu pcb a access =
          some (faulted cpu tlb params, none)) ∨
        ∃ address, withAddress cfg answers cpu pcb a access =
          access { cpu with tlb := tlb } params address)) := by
  cases outside with
  | true =>
    left
    simp [withAddress, ht]
  | false =>
    right
    obtain ⟨tlb, htlb, ⟨hf, hb⟩ | ⟨address, hne, hb⟩⟩ := build_physical_address_cases hsort hp ha
      params (page_offset_nonneg h0 ht) pcb
    · exact ⟨rfl, tlb, htlb, Or.inl ⟨hf, by simp [withAddress, ht, hclear, hb, faulted]⟩⟩
    · exact ⟨rfl, tlb, htlb, Or.inr ⟨address, by simp [withAddress, ht, hclear, hb, hne]⟩⟩

/-- What `execute_instruction` leaves: a fault without effect, or the effect. -/
inductive Outcome (cfg : CpuConfig) (answers : Answers) (cpu cpu' : Cpu) (eff : Effect) :
    Option Access → Prop
  | faults (asked : answers.frame = .pageFault (-1)) (fault : cpu'.pageFault = true)
      (clear : Raised cpu' none) (registers : cpu'.registers = cpu.registers) :
      Outcome cfg answers cpu cpu' eff none
  | completes (access : Option Access) (fault : cpu'.pageFault = false)
      (raised : Raised cpu' eff.stop) (registers : cpu'.registers = eff.registers)
      (same : access.map logicalAccess = eff.access) : Outcome cfg answers cpu cpu' eff access

theorem mov_outcome {cfg : CpuConfig} (hsort : Sorts cfg) {cpu : Cpu}
    (hp : Plausible cfg cpu.tlb) (hclear : Raised cpu none) (hfault : cpu.pageFault = false)
    {answers : Answers}
    (ha : (∃ f, answers.frame = .frameResponse f ∧ 0 ≤ f) ∨ answers.frame = .pageFault (-1))
    {pcb : Pcb} {a : ℤ} (h0 : 0 ≤ a) {params : LogicalAddressParameters} {outside : Bool}
    (ht : translateLogicalAddress cfg a pcb = some (params, outside))
    (access : Cpu → LogicalAddressParameters → ℤ → Option (Cpu × Option Access))
    (r : Registers) (made : ℤ → Access) (l : LogicalAccess)
    (hl : ∀ address, logicalAccess (made address) = l)
    (hmade : outside = false → ∀ tlb address, access { cpu with tlb := tlb } params address =
      some ({ cpu with tlb := tlb, registers := r }, some (made address))) :
    ∃ cpu' done, withAddress cfg answers cpu pcb a access = some (cpu', done) ∧
      Plausible cfg cpu'.tlb ∧ cpu'.checkInterruption = cpu.checkInterruption ∧
      Outcome cfg answers cpu cpu' (movEffect cpu.registers r outside l) done := by
  obtain ⟨hend, hio, hseg⟩ := hclear
  obtain ⟨rfl, hw⟩ | ⟨rfl, tlb, htlb, ⟨hasked, hw⟩ | ⟨address, hw⟩⟩ :=
    with_address_cases hsort hp hseg ha h0 ht access
  · exact ⟨_, _, hw, hp, rfl, .completes none hfault ⟨hend, hio, rfl, hfault⟩ rfl rfl⟩
  · exact ⟨_, _, hw, htlb, rfl, .faults hasked rfl ⟨hend, hio, hseg⟩ rfl⟩
  · exact ⟨_, _, hw.trans (hmade rfl tlb address), htlb, rfl,
      .completes _ hfault ⟨hend, hio, hseg⟩ rfl (by simp [hl, movEffect])⟩

theorem execute_instruction_effect {cfg : CpuConfig} (hsort : Sorts cfg)
    (recalled : LogicalAddressParameters → UInt32) (cpu : Cpu) (pcb : Pcb)
    (instruction : List String) (answers : Answers) (hp : Plausible cfg cpu.tlb)
    (hclear : Raised cpu none) (hfault : cpu.pageFault = false)
    (h0 : ∀ a, movAddress instruction = some a → 0 ≤ a)
    (ht : Truthful cfg recalled pcb instruction answers) :
    (effect cfg recalled cpu.registers pcb instruction = none ∧
      executeInstruction cfg answers cpu pcb instruction = none) ∨
    ∃ eff cpu' access, effect cfg recalled cpu.registers pcb instruction = some eff ∧
      executeInstruction cfg answers cpu pcb instruction = some (cpu', access) ∧
      Plausible cfg cpu'.tlb ∧ cpu'.checkInterruption = cpu.checkInterruption ∧
      Outcome cfg answers cpu cpu' eff access := by
  obtain ⟨hend, hio, hseg⟩ := hclear
  cases hname : instruction[0]? with
  | none => exact Or.inl (by simp [effect, executeInstruction, hname])
  | some name =>
  cases hkey : keyfromstring name with
  | set =>
    cases h1 : instruction[1]? <;> cases h2 : instruction[2]?
    case some.some register value =>
      right
      exact ⟨⟨addValueToRegister cpu.registers register value, none, none⟩,
        { cpu with registers := addValueToRegister cpu.registers register value }, none,
        by simp [effect, hname, hkey, h1, h2], by simp [executeInstruction, hname, hkey, h1, h2],
        hp, rfl, .completes none hfault ⟨hend, hio, hseg⟩ rfl rfl⟩
    all_goals exact Or.inl (by simp [effect, executeInstruction, hname, hkey, h1, h2])
  | add =>
    cases h1 : instruction[1]? <;> cases h2 : instruction[2]?
    case some.some register source =>
      right
      exact ⟨⟨addTwoRegisters cpu.registers register source, none, none⟩,
        { cpu with registers := addTwoRegisters cpu.registers register source }, none,
        by simp [effect, hname, hkey, h1, h2], by simp [executeInstruction, hname, hkey, h1, h2],
        hp, rfl, .completes none hfault ⟨hend, hio, hseg⟩ rfl rfl⟩
    all_goals exact Or.inl (by simp [effect, executeInstruction, hname, hkey, h1, h2])
  | io =>
    cases h1 : instruction[1]? <;> cases h2 : instruction[2]?
    case some.some device parameter =>
      right
      exact ⟨⟨cpu.registers, some (.inputOuput device parameter), none⟩,
        { cpu with device := device, parameter := parameter, inputOuput := true }, none,
        by simp [effect, hname, hkey, h1, h2], by simp [executeInstruction, hname, hkey, h1, h2],
        hp, rfl, .completes none hfault ⟨hend, rfl, hseg, hfault, rfl, rfl⟩ rfl rfl⟩
    all_goals exact Or.inl (by simp [effect, executeInstruction, hname, hkey, h1, h2])
  | exit =>
    right
    exact ⟨⟨cpu.registers, some .endProcess, none⟩, { cpu with endProcess := true }, none,
      by simp [effect, hname, hkey], by simp [executeInstruction, hname, hkey], hp, rfl,
      .completes none hfault ⟨rfl, hio, hseg, hfault⟩ rfl rfl⟩
  | badkey =>
    right
    exact ⟨⟨cpu.registers, none, none⟩, cpu, none, by simp [effect, hname, hkey],
      by simp [executeInstruction, hname, hkey], hp, rfl,
      .completes none hfault ⟨hend, hio, hseg⟩ rfl rfl⟩
  | movIn =>
    cases h1 : instruction[1]? with
    | none => exact Or.inl (by simp [effect, executeInstruction, hname, hkey, h1])
    | some register =>
    cases h2 : instruction[2]? with
    | none => exact Or.inl (by simp [effect, executeInstruction, hname, hkey, h1, h2])
    | some logicalAddress =>
    have haddr : movAddress instruction = some (atoi logicalAddress) := by
      simp [movAddress, hname, hkey, h2]
    cases htr : translateLogicalAddress cfg (atoi logicalAddress) pcb with
    | none => exact Or.inl (by
        simp [effect, executeInstruction, withAddress, hname, hkey, h1, h2, htr])
    | some translated =>
    obtain ⟨params, outside⟩ := translated
    right
    obtain ⟨cpu', done, hw, hrest⟩ := mov_outcome hsort hp ⟨hend, hio, hseg⟩ hfault ht.frame
      (h0 _ haddr) htr (movInAccess answers register)
      (storeValueInRegister cpu.registers register (recalled params))
      (fun address => .load params address (recalled params)) (.load params (recalled params))
      (fun _ => rfl) (by
        rintro rfl tlb address
        simp [movInAccess, ht.value _ params haddr htr (by simp [hname, hkey])])
    exact ⟨_, cpu', done, by simp [effect, hname, hkey, h1, h2, htr],
      by simp [executeInstruction, hname, hkey, h1, h2, hw], hrest⟩
  | movOut =>
    cases h1 : instruction[1]? with
    | none => exact Or.inl (by simp [effect, executeInstruction, hname, hkey, h1])
    | some logicalAddress =>
    cases h2 : instruction[2]? with
    | none => exact Or.inl (by simp [effect, executeInstruction, hname, hkey, h1, h2])
    | some register =>
    have haddr : movAddress instruction = some (atoi logicalAddress) := by
      simp [movAddress, hname, hkey, h1]
    cases htr : translateLogicalAddress cfg (atoi logicalAddress) pcb with
    | none => exact Or.inl (by
        simp [effect, executeInstruction, withAddress, hname, hkey, h1, h2, htr])
    | some translated =>
    obtain ⟨params, outside⟩ := translated
    right
    obtain ⟨segment, hsegment⟩ : ∃ segment,
        listGet pcb.segmentTable params.segmentNumber = some segment := by
      simp only [translateLogicalAddress, Option.bind_eq_bind, Option.bind_eq_some_iff] at htr
      obtain ⟨segment, hs, htr⟩ := htr
      simp only [Option.some.injEq, Prod.mk.injEq] at htr
      rw [← htr.1]
      exact ⟨segment, hs⟩
    obtain ⟨cpu', done, hw, hrest⟩ := mov_outcome hsort hp ⟨hend, hio, hseg⟩ hfault ht.frame
      (h0 _ haddr) htr (movOutAccess pcb register) cpu.registers
      (fun address => .store params address (findValueOfRegister cpu.registers register))
      (.store params (findValueOfRegister cpu.registers register)) (fun _ => rfl) (by
        rintro rfl tlb address
        simp [movOutAccess, hsegment])
    exact ⟨_, cpu', done, by simp [effect, hname, hkey, h1, h2, htr],
      by simp [executeInstruction, hname, hkey, h1, h2, hw], hrest⟩

/-- The package for a process that leaves the CPU for good or for a device. -/
def finalPackage (pcb : Pcb) : Stop → CpuPackage
  | .endProcess => .endProcess pcb
  | .inputOuput device parameter => sendPcbIoPackage pcb device parameter
  | .sigsegv => .segFault pcb

/-- The package for a process that is to be dispatched again. -/
def returnedPackage (cpu : Cpu) (pcb : Pcb) : CpuPackage :=
  if cpu.pageFault then
    .pageFault pcb cpu.numeroSegmentoGlobalPageFault cpu.numeroPaginaGlobalPageFault
  else .executeInterruption pcb

def packageFor (cpu : Cpu) (pcb : Pcb) : Option Stop → CpuPackage
  | none => returnedPackage cpu pcb
  | some stop => finalPackage pcb stop

def lowered (cpu : Cpu) : Cpu :=
  { cpu with
    endProcess := false
    inputOuput := false
    checkInterruption := false
    pageFault := false
    sigsegv := false }

/-- The chain of tests sends exactly one package and lowers every flag: no flag
of the process is left for the next one. -/
theorem leave_process_sends (cpu : Cpu) (pcb : Pcb) (stop : Option Stop) (hr : Raised cpu stop)
    (hleave : keepsRunning cpu = false) :
    leaveProcess cpu pcb = (lowered cpu, some (packageFor cpu pcb stop)) := by
  obtain ⟨registers, e, i, c, f, g, device, parameter, segment, page, tlb⟩ := cpu
  cases stop with
  | none =>
    obtain ⟨rfl, rfl, rfl⟩ := hr
    cases f with
    | true => rfl
    | false =>
      obtain rfl : c = true := by simpa [keepsRunning] using hleave
      rfl
  | some st =>
    cases st with
    | endProcess =>
      obtain ⟨rfl, rfl, rfl, rfl⟩ := hr
      rfl
    | inputOuput =>
      obtain ⟨rfl, rfl, rfl, rfl, rfl, rfl⟩ := hr
      rfl
    | sigsegv =>
      obtain ⟨rfl, rfl, rfl, rfl⟩ := hr
      rfl

theorem running_clear {cpu : Cpu} {stop : Option Stop} (hr : Raised cpu stop)
    (hrun : keepsRunning cpu = true) : stop = none ∧ Raised cpu none ∧ cpu.pageFault = false := by
  simp only [keepsRunning, Bool.and_eq_true, Bool.not_eq_true'] at hrun
  obtain ⟨⟨⟨⟨_, he⟩, hi⟩, hf⟩, hs⟩ := hrun
  refine ⟨?_, ⟨he, hi, hs⟩, hf⟩
  cases stop with
  | none => rfl
  | some st => cases st <;> simp_all [Raised]

theorem raised_keeps_running {cpu : Cpu} {st : Stop} (hr : Raised cpu (some st)) :
    keepsRunning cpu = false := by
  cases h : keepsRunning cpu with
  | false => rfl
  | true => exact absurd (running_clear hr h).1 (by simp)

end Geck.CpuEffects
