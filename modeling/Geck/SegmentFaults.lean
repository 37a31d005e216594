import Geck.PageBounds
import Geck.CpuFlags

/-!
# Addresses outside the segments of a process

The MMU divides an address by the largest segment size and compares the offset
with the size of the segment it finds. Nothing checks the sign of the address or
the number of the segment: division truncates towards zero, and the entry past
the table is read all the same.
-/

set_option autoImplicit false

namespace Geck.SegmentFaults
open Geck.BlockStore Geck.SharedPcb Geck.MemoryFaults Geck.CpuTranslation Geck.CpuExecution
open Geck.CpuEffects Geck.CpuFlags

def segmentSpan (cfg : CpuConfig) : ℤ := cfg.entradasPorTabla*cfg.tamPagina

/-- The address is in no segment of the process. -/
def Outside (cfg : CpuConfig) (pcb : Pcb) (a : ℤ) : Prop :=
  a < 0 ∨ (pcb.segmentTable.length : ℤ) ≤ a/segmentSpan cfg ∨
    ∃ segment, listGet pcb.segmentTable (a/segmentSpan cfg) = some segment ∧
      segment.size ≤ a % segmentSpan cfg

/-- The instruction ends the process with `SEG_FAULT`, whatever memory would
answer; it makes no access and leaves the TLB alone. -/
def EndsWithSegFault (cfg : CpuConfig) (cpu : Cpu) (pcb : Pcb) : Prop :=
  ∀ answers, ∃ stopped, instructionCycle cfg answers cpu pcb =
      some (stopped, updateProgramCounter pcb, none) ∧
    stopped.tlb = cpu.tlb ∧ keepsRunning stopped = false ∧
    (leaveProcess stopped (saveContextPcb stopped (updateProgramCounter pcb))).2 =
      some (.segFault (saveContextPcb cpu (updateProgramCounter pcb)))

structure SegfaultsExactly (cfg : CpuConfig) (pcb : Pcb) (a : ℤ) : Prop where
  raised : ∃ params sigsegv, translateLogicalAddress cfg a pcb = some (params, sigsegv) ∧
    (sigsegv = true ↔ Outside cfg pcb a)
  ends : Outside cfg pcb a → ∀ cpu instruction, keepsRunning cpu = true →
    fetchNextInstructionToExecute pcb = some instruction → 3 ≤ (decode cfg instruction).length →
    movAddress (decode cfg instruction) = some a → EndsWithSegFault cfg cpu pcb

/-- The segment exists, or the truncated division ends at a first segment whose size is
below the negative offset. -/
def Checked (cfg : CpuConfig) (pcb : Pcb) (a : ℤ) : Prop :=
  (0 ≤ a ∧ a/segmentSpan cfg < pcb.segmentTable.length) ∨
    (-segmentSpan cfg < a ∧ a < 0 ∧ ∃ segment, pcb.segmentTable[0]? = some segment ∧ segment.size ≤ a)

section Translation
variable {cfg : CpuConfig} {pcb : Pcb} {a : ℤ}

theorem translate_flag {params : LogicalAddressParameters} {sigsegv : Bool}
    (h : translateLogicalAddress cfg a pcb = some (params, sigsegv)) :
    ∃ segment, listGet pcb.segmentTable (a.tdiv (segmentSpan cfg)) = some segment ∧
      (sigsegv = true ↔ segment.size ≤ a.tmod (segmentSpan cfg)) := by
  simp only [translateLogicalAddress, Option.bind_eq_bind, Option.bind_eq_some_iff,
    Option.some.injEq, Prod.mk.injEq] at h
  obtain ⟨segment, hs, -, rfl⟩ := h
  exact ⟨segment, hs, by simp [segmentSpan]⟩

theorem translate_found {segment : Segment}
    (h : listGet pcb.segmentTable (a.tdiv (segmentSpan cfg)) = some segment) :
    ∃ params, translateLogicalAddress cfg a pcb =
      some (params, decide (segment.size ≤ a.tmod (segmentSpan cfg))) := by
  simp only [segmentSpan] at h
  exact ⟨_, by simp only [translateLogicalAddress, h, Option.bind_eq_bind, Option.bind_some]; rfl⟩

/-- Division truncates: a negative address has segment number 0 or a negative one. -/
theorem negative_segment (hspan : 0 < segmentSpan cfg) (ha : a < 0) :
    (-segmentSpan cfg < a ∧ a.tdiv (segmentSpan cfg) = 0 ∧ a.tmod (segmentSpan cfg) = a) ∨
      (a ≤ -segmentSpan cfg ∧ a.tdiv (segmentSpan cfg) < 0) := by
  have hdiv : a.tdiv (segmentSpan cfg) = -((-a)/segmentSpan cfg) := by
    rw [← Int.tdiv_eq_ediv_of_nonneg (by omega), Int.neg_tdiv, neg_neg]
  have hsplit := Int.mul_tdiv_add_tmod a (segmentSpan cfg)
  obtain hlt | hge := lt_or_ge (-a) (segmentSpan cfg)
  · have hzero : a.tdiv (segmentSpan cfg) = 0 := by
      rw [hdiv, Int.ediv_eq_zero_of_lt (by omega) hlt, neg_zero]
    rw [hzero, mul_zero, zero_add] at hsplit
    exact Or.inl ⟨by omega, hzero, hsplit⟩
  · have hone : 1 ≤ (-a)/segmentSpan cfg := (Int.le_ediv_iff_mul_le hspan).mpr (by omega)
    exact Or.inr ⟨by omega, by omega⟩

theorem list_get_exists {α : Type*} {l : List α} {i : ℤ} (h0 : 0 ≤ i) (hlt : i < l.length) :
    ∃ x, listGet l i = some x := by
  have hnat : i.toNat < l.length := by omega
  exact ⟨l[i.toNat], by simp [listGet, h0, hnat]⟩

/-- A raised flag stops the process at this instruction. -/
theorem raised_ends {params : LogicalAddressParameters}
    (ht : translateLogicalAddress cfg a pcb = some (params, true)) {cpu : Cpu} {instruction : String}
    (hrun : keepsRunning cpu = true) (hf : fetchNextInstructionToExecute pcb = some instruction)
    (hlen : 3 ≤ (decode cfg instruction).length)
    (ha : movAddress (decode cfg instruction) = some a) : EndsWithSegFault cfg cpu pcb := by
  intro answers
  have hclear := clear_of_running hrun
  have hwith : ∀ access, withAddress cfg answers cpu pcb a access =
      some ({ cpu with sigsegv := true }, none) := by
    intro access
    simp [withAddress, ht]
  have hexec : executeInstruction cfg answers cpu pcb (decode cfg instruction) =
      some ({ cpu with sigsegv := true }, none) := by
    obtain ⟨name, hname⟩ : ∃ x, (decode cfg instruction)[0]? = some x := ⟨_, List.getElem?_eq_getElem
      (by omega)⟩
    obtain ⟨first, hfirst⟩ : ∃ x, (decode cfg instruction)[1]? = some x :=
      ⟨_, List.getElem?_eq_getElem (by omega)⟩
    obtain ⟨second, hsecond⟩ : ∃ x, (decode cfg instruction)[2]? = some x :=
      ⟨_, List.getElem?_eq_getElem (by omega)⟩
    simp only [movAddress, hname, hfirst, hsecond, Option.bind_eq_bind, Option.bind_some] at ha
    simp only [executeInstruction, hname, hfirst, hsecond, Option.bind_eq_bind, Option.bind_some]
    cases hkey : keyfromstring name <;> simp [hkey] at ha
    · simp [ha, hwith]
    · simp [ha, hwith]
  refine ⟨{ cpu with sigsegv := true }, ?_, rfl, by simp [keepsRunning], ?_⟩
  · simp [instructionCycle, hf, hexec, hclear.2]
  · obtain ⟨⟨hend, hio, -⟩, hfault⟩ := hclear
    simp [leaveProcess, hend, hio, hfault, saveContextPcb]

end Translation

/-- Where the largest segment size fits an `int`, a segmentation fault is raised exactly when it
should be if and only if the address is checked: it is not negative and its segment exists, or it
is negative and the truncated division ends at a first segment of a size below it. -/
theorem segfaults_exactly_iff (cfg : CpuConfig) (hpage : 0 < cfg.tamPagina)
    (htable : 0 < cfg.entradasPorTabla) (_hint : segmentSpan cfg < 2^31) (pcb : Pcb) (a : ℤ) :
    SegfaultsExactly cfg pcb a ↔ Checked cfg pcb a := by
  have hspan : 0 < segmentSpan cfg := by
    unfold segmentSpan
    positivity
  constructor
  · rintro ⟨⟨params, sigsegv, ht, hflag⟩, -⟩
    obtain ⟨segment, hs, hsize⟩ := translate_flag ht
    obtain hneg | h0 := lt_or_ge a 0
    · have hraised := hsize.mp (hflag.mpr (Or.inl hneg))
      obtain ⟨hlt, hzero, hmod⟩ | ⟨-, hnumber⟩ := negative_segment hspan hneg
      · rw [hzero] at hs
        exact Or.inr ⟨hlt, hneg, segment, (list_get_some hs).2, hmod ▸ hraised⟩
      · have := (list_get_lt hs).1
        omega
    · rw [Int.tdiv_eq_ediv_of_nonneg h0] at hs
      exact Or.inl ⟨h0, (list_get_lt hs).2⟩
  · intro hchecked
    have hraised : ∃ params sigsegv, translateLogicalAddress cfg a pcb = some (params, sigsegv) ∧
        (sigsegv = true ↔ Outside cfg pcb a) := by
      obtain ⟨h0, hlt⟩ | ⟨hlt, hneg, segment, hs, hsize⟩ := hchecked
      · have hnumber : 0 ≤ a/segmentSpan cfg := Int.ediv_nonneg h0 hspan.le
        obtain ⟨segment, hs⟩ := list_get_exists hnumber hlt
        obtain ⟨params, ht⟩ := translate_found (Int.tdiv_eq_ediv_of_nonneg h0 ▸ hs)
        refine ⟨params, _, ht, ?_⟩
        rw [decide_eq_true_eq, Int.tmod_eq_emod_of_nonneg h0]
        constructor
        · exact fun hsize => Or.inr (Or.inr ⟨segment, hs, hsize⟩)
        · rintro (hneg | hpast | ⟨other, hother, hsize⟩)
          · omega
          · omega
          · rwa [Option.some.inj (hs.symm.trans hother)]
      · obtain ⟨-, hzero, hmod⟩ | ⟨hge, -⟩ := negative_segment hspan hneg
        · have hs' : listGet pcb.segmentTable (a.tdiv (segmentSpan cfg)) = some segment := by
            rw [hzero]
            exact hs
          obtain ⟨params, ht⟩ := translate_found hs'
          exact ⟨params, _, ht, iff_of_true (by simpa [hmod] using hsize) (Or.inl hneg)⟩
        · omega
    refine ⟨hraised, fun hout cpu instruction hrun hf hlen ha => ?_⟩
    obtain ⟨params, sigsegv, ht, hflag⟩ := hraised
    obtain rfl := hflag.mpr hout
    exact raised_ends ht hrun hf hlen ha

/-- The first byte past the only segment of eight bytes. -/
theorem segfaults_exactly_small : SegfaultsExactly smallCpu (smallPcb 0) 8 :=
  (segfaults_exactly_iff smallCpu (by decide) (by decide) (by decide) (smallPcb 0) 8).mpr
    (Or.inl ⟨by decide, by decide⟩)

/-- Address -1 passes as offset -1 of segment 0, and an address of segment 1 reads an entry
that is not there. -/
theorem segfaults_missed :
    ¬SegfaultsExactly smallCpu (smallPcb 0) (-1) ∧ ¬SegfaultsExactly smallCpu (smallPcb 0) 16 := by
  constructor
  · rintro ⟨⟨params, sigsegv, ht, hflag⟩, -⟩
    have hpasses : (translateLogicalAddress smallCpu (-1) (smallPcb 0)).map Prod.snd = some false := by
      decide
    rw [ht] at hpasses
    obtain rfl := Option.some.inj hpasses
    exact absurd (hflag.mpr (Or.inl (by decide))) (by decide)
  · rintro ⟨⟨params, sigsegv, ht, -⟩, -⟩
    have hcrash : translateLogicalAddress smallCpu 16 (smallPcb 0) = none := by decide
    simp [hcrash] at ht

end Geck.SegmentFaults
