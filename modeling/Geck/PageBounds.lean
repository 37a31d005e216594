import Geck.FlatMemory
import Geck.MemoryIsolation
import Geck.CpuTranslation

/-!
# The bytes a `MOV` touches

The CPU compares the first byte of an access with the size of the segment, and
memory copies four bytes without a check. The copy stays in the frame and in
the segment exactly when the address leaves room for four bytes in both, and
then it cannot touch what other processes hold.
-/

set_option autoImplicit false

namespace Geck.PageBounds
open Geck.LabelledRuns Geck.BlockStore Geck.SharedPcb Geck.MemoryState Geck.MemoryPaging
open Geck.MemoryHandlers Geck.MemoryReplacement Geck.MemoryAccounting Geck.MemoryFaults
open Geck.MemorySystem Geck.MemoryIsolation Geck.MemoryContents Geck.CpuTranslation

/-- The four bytes are in the frame and in the segment. -/
def Inside (cfg : CpuConfig) (pcb : Pcb) (frame : ℤ) (params : LogicalAddressParameters) : Prop :=
  ∀ k : ℤ, 0 ≤ k → k < 4 →
    frame*cfg.tamPagina ≤ calculatePhysicalAddress frame params.pageOffset cfg.tamPagina+k ∧
    calculatePhysicalAddress frame params.pageOffset cfg.tamPagina+k < (frame+1)*cfg.tamPagina ∧
    ∃ segment, listGet pcb.segmentTable params.segmentNumber = some segment ∧
      0 ≤ params.segmentOffset+k ∧ params.segmentOffset+k < segment.size

/-- The address leaves room for four bytes in its page and in its segment. -/
def Fits (cfg : CpuConfig) (pcb : Pcb) (logicalAddress : ℤ) : Prop :=
  0 ≤ logicalAddress ∧ logicalAddress % cfg.tamPagina+4 ≤ cfg.tamPagina ∧
    ∃ segment, listGet pcb.segmentTable (logicalAddress/(cfg.entradasPorTabla*cfg.tamPagina)) =
        some segment ∧
      logicalAddress % (cfg.entradasPorTabla*cfg.tamPagina)+4 ≤ segment.size

/-- Neither a store nor a load at the address touches the frame of `y`: the
store leaves its bytes and the load answers the same whatever they are. -/
structure Untouched (cfg : MemoryConfig) (m : Memory) (y : PageTableRow) (physicalAddress : ℤ) :
    Prop where
  store : ∀ value index pid m' answer,
    attendCpu cfg m (.movOut physicalAddress value index pid) = some (m', answer) →
    ∀ k < cfg.tamPagina, frameBytes cfg m' y k = frameBytes cfg m y k
  load : ∀ (ram : ℕ → UInt8) pcb segment page,
    (∀ b, (∀ k < cfg.tamPagina, b ≠ y.frameNumber.toNat*cfg.tamPagina+k) →
      ram b = m.principalMemory b) →
    (attendCpu cfg { m with principalMemory := ram } (.movIn physicalAddress pcb segment page)).map
        Prod.snd =
      (attendCpu cfg m (.movIn physicalAddress pcb segment page)).map Prod.snd

/-- No frame of another process is touched at the address. -/
def Isolated (cfg : MemoryConfig) (s : Site) (pid physicalAddress : ℤ) : Prop :=
  ∀ q r y, q ≠ pid → LiveRow s.memory s.live q r y → y.presence = true →
    Untouched cfg s.memory y physicalAddress

theorem translated {cfg : CpuConfig} {a : ℤ} {pcb : Pcb} {params : LogicalAddressParameters}
    {outside : Bool} (h : translateLogicalAddress cfg a pcb = some (params, outside)) :
    params.segmentNumber = a.tdiv (cfg.entradasPorTabla*cfg.tamPagina) ∧
    params.segmentOffset = a.tmod (cfg.entradasPorTabla*cfg.tamPagina) ∧
    params.pageOffset = (a.tmod (cfg.entradasPorTabla*cfg.tamPagina)).tmod cfg.tamPagina ∧
    (listGet pcb.segmentTable params.segmentNumber).isSome := by
  simp only [translateLogicalAddress, Option.bind_eq_bind, Option.bind_eq_some_iff,
    Option.some.injEq, Prod.mk.injEq] at h
  obtain ⟨segment, hs, rfl, _⟩ := h
  exact ⟨rfl, rfl, rfl, by simp [hs]⟩

/-- An address below zero has its first byte before the segment. -/
theorem negative_offset {cfg : CpuConfig} {a : ℤ} {pcb : Pcb} {params : LogicalAddressParameters}
    {outside : Bool} (h : translateLogicalAddress cfg a pcb = some (params, outside)) (ha : a < 0) :
    params.segmentOffset < 0 := by
  obtain ⟨hnumber, hoffset, _, hsome⟩ := translated h
  obtain ⟨segment, hs⟩ := Option.isSome_iff_exists.mp hsome
  obtain ⟨h0, _⟩ := list_get_some hs
  have hpos : 0 ≤ (-a).tdiv (cfg.entradasPorTabla*cfg.tamPagina) :=
    Int.tdiv_nonneg (by omega) (by positivity)
  rw [Int.neg_tdiv] at hpos
  have hzero : a.tdiv (cfg.entradasPorTabla*cfg.tamPagina) = 0 := by omega
  have hsplit := Int.mul_tdiv_add_tmod a (cfg.entradasPorTabla*cfg.tamPagina)
  rw [hzero, mul_zero, zero_add] at hsplit
  rw [hoffset, hsplit]
  exact ha

/-- The four bytes stay inside, whatever the frame, exactly when the address fits. -/
theorem inside_iff_fits {cfg : CpuConfig} {a : ℤ} {pcb : Pcb} {params : LogicalAddressParameters}
    {outside : Bool} (h : translateLogicalAddress cfg a pcb = some (params, outside))
    (frame : ℤ) : Inside cfg pcb frame params ↔ Fits cfg pcb a := by
  obtain ⟨hnumber, hoffset, hpage, _⟩ := translated h
  by_cases ha : a < 0
  · have hneg := negative_offset h ha
    constructor
    · intro hin
      obtain ⟨_, _, segment, _, h0, _⟩ := hin 0 le_rfl (by omega)
      omega
    · rintro ⟨h0, _⟩
      omega
  · have h0 : 0 ≤ a := by omega
    have hnum : params.segmentNumber = a/(cfg.entradasPorTabla*cfg.tamPagina) := by
      rw [hnumber, Int.tdiv_eq_ediv_of_nonneg h0]
    have hoff : params.segmentOffset = a % (cfg.entradasPorTabla*cfg.tamPagina) := by
      rw [hoffset, Int.tmod_eq_emod_of_nonneg h0]
    have hnonneg : 0 ≤ params.segmentOffset := by
      rw [hoffset]
      exact Int.tmod_nonneg _ h0
    have hin : params.pageOffset = a % cfg.tamPagina := by
      rw [hpage, ← hoffset, Int.tmod_eq_emod_of_nonneg hnonneg, hoff]
      exact Int.emod_emod_of_dvd _ (Dvd.intro_left _ rfl)
    have hpos : 0 ≤ params.pageOffset := by
      rw [hpage, ← hoffset]
      exact Int.tmod_nonneg _ hnonneg
    have hnext : (frame+1)*(cfg.tamPagina : ℤ) = frame*cfg.tamPagina+cfg.tamPagina := by ring
    constructor
    · intro hall
      obtain ⟨_, hhi, segment, hs, _, hsize⟩ := hall 3 (by omega) (by omega)
      rw [calculatePhysicalAddress, hnext, hin] at hhi
      rw [hnum] at hs
      rw [hoff] at hsize
      exact ⟨h0, by omega, segment, hs, by omega⟩
    · rintro ⟨_, hp, segment, hs, hsize⟩ k hk hk4
      rw [calculatePhysicalAddress, hnext]
      rw [← hin] at hp
      rw [← hnum] at hs
      rw [← hoff] at hsize
      exact ⟨by omega, by omega, segment, hs, by omega, by omega⟩

theorem load_word_same {s s' : ℕ → UInt8} {a : ℕ} (h : ∀ k < 4, s' (a+k) = s (a+k)) :
    loadWord s' a = loadWord s a := by
  have h0 := h 0 (by decide)
  have h1 := h 1 (by decide)
  have h2 := h 2 (by decide)
  have h3 := h 3 (by decide)
  rw [Nat.add_zero] at h0
  rw [loadWord, loadWord, h0, h1, h2, h3]

theorem mark_use_ram (f : ℤ) (rows : List ClockRow) (m : Memory) (ram : ℕ → UInt8) :
    markUse f rows { m with principalMemory := ram } =
      { markUse f rows m with principalMemory := ram } := by
  induction rows generalizing m with
  | nil => rfl
  | cons k rows ih =>
    unfold markUse
    by_cases hk : f = k.frameNumberInMemory
    · rw [if_pos hk, if_pos hk]
      exact ih (modifyRow m k.page fun r => { r with use := true })
    · rw [if_neg hk, if_neg hk]
      exact ih m

theorem update_page_use_ram (m : Memory) (ram : ℕ → UInt8) (pcb : Pcb) (segment page : ℤ) :
    updatePageUse { m with principalMemory := ram } pcb segment page =
      (updatePageUse m pcb segment page).map fun m => { m with principalMemory := ram } := by
  simp only [updatePageUse, Option.bind_eq_bind, getStructClock, Option.map_bind,
    Function.comp_def]
  refine Option.bind_congr fun row _ => ?_
  refine Option.bind_congr fun t _ => ?_
  refine Option.bind_congr fun table _ => ?_
  refine Option.bind_congr fun x _ => ?_
  refine Option.bind_congr fun clock _ => ?_
  rw [mark_use_ram]
  rfl

/-- An access within one frame touches no other. -/
theorem other_frame_untouched {cfg : MemoryConfig} {m : Memory} {y : PageTableRow} {f offset : ℕ}
    (hid : ∀ (i : ℕ) t, m.allPageTables[i]? = some t → t.id = i)
    (hoffset : offset+4 ≤ cfg.tamPagina) (hne : f ≠ y.frameNumber.toNat) :
    Untouched cfg m y ((f : ℤ)*cfg.tamPagina+offset) := by
  have haddr : ((f : ℤ)*cfg.tamPagina+offset).toNat = f*cfg.tamPagina+offset := by norm_cast
  have hapart (k j : ℕ) (hk : k < cfg.tamPagina) (hj : j < 4) :
      f*cfg.tamPagina+offset+j ≠ y.frameNumber.toNat*cfg.tamPagina+k := by
    intro he
    exact hne (block_address cfg.tamPagina f y.frameNumber.toNat k hk (by omega))
  constructor
  · intro value index pid m' answer h k hk
    obtain ⟨t, table, i, _, _, _, rfl⟩ := save_value_found hid (attend_mov_out_some h)
    simp only [frameBytes, block, haddr, storeWord]
    rw [if_neg]
    rintro ⟨hlo, hhi⟩
    exact hapart k (y.frameNumber.toNat*cfg.tamPagina+k-(f*cfg.tamPagina+offset)) hk (by omega)
      (by omega)
  · intro ram pcb segment page hram
    simp only [attendCpu, update_page_use_ram, Option.bind_eq_bind]
    cases hu : updatePageUse m pcb segment page with
    | none => rfl
    | some m₁ =>
      have hsame : m₁.principalMemory = m.principalMemory := by
        obtain ⟨f, rows, rfl⟩ := update_page_use_some hu
        exact (mark_use_same_but_use f rows m).ram
      have hload : loadWord ram (f*cfg.tamPagina+offset) =
          loadWord m₁.principalMemory (f*cfg.tamPagina+offset) := by
        rw [hsame]
        apply load_word_same
        intro j hj
        exact hram _ fun k hk => hapart k j hk hj
      simp only [Option.map_some, Option.bind_some, readValueInPrincipalMemory, haddr, hload]
      split <;> rfl

/-- For every address that the CPU accepts, in every reachable state of memory:
every frame holds the four bytes, the segment too, and no frame of another
process is touched, exactly when the address fits. -/
theorem accesses_inside_iff (cfg : MemoryConfig) (valid : ValidConfig cfg) (cpu : CpuConfig)
    (hpage : cpu.tamPagina = cfg.tamPagina)
    (_hint : (cpu.entradasPorTabla*cpu.tamPagina : ℤ) < 2^31) (ram swap : ℕ → UInt8)
    (requests : List Request) (s : Site) (hg : Guarded (siteStep cfg) (Allowed cfg) (boot cfg ram swap) requests)
    (hr : run (siteStep cfg) (boot cfg ram swap) requests = some s) (pcb : Pcb)
    (hl : s.live pcb.processId = some pcb.segmentTable) (logicalAddress : ℤ)
    (params : LogicalAddressParameters)
    (ht : translateLogicalAddress cpu logicalAddress pcb = some (params, false)) :
    ((∀ frame, Inside cpu pcb frame params) ∧
      ∀ v x, requestedPage pcb.segmentTable params.segmentNumber params.pageNum = some v →
        row s.memory v = some x → x.presence = true → Isolated cfg s pcb.processId
          (calculatePhysicalAddress x.frameNumber params.pageOffset cpu.tamPagina)) ↔
    Fits cpu pcb logicalAddress := by
  constructor
  · intro h
    exact (inside_iff_fits ht 0).mp (h.1 0)
  · intro hfits
    refine ⟨fun frame => (inside_iff_fits ht frame).mpr hfits, ?_⟩
    intro v x hv hx hpres q r y hq hy hyp
    have hold := (accounts_run valid ram swap requests s hg hr).holdings
    have hlive : LiveRow s.memory s.live pcb.processId v x := ⟨requested_owned hl hv, hx⟩
    have hf := (marked_range (hold.frameMarked _ v x hlive hpres)).1
    have hfy := (marked_range (hold.frameMarked _ r y hy hyp)).1
    -- a frame holds one page, and a page has one owner
    have hne : x.frameNumber ≠ y.frameNumber := by
      intro he
      obtain rfl := hold.frameUnique _ _ v r x y hlive hy hpres hyp he
      exact hq (hold.disjoint _ _ _ hy.1 hlive.1)
    have hin := (inside_iff_fits ht 0).mpr hfits
    have hfirst := (hin 0 le_rfl (by omega)).1
    have hlast := (hin 3 (by omega) (by omega)).2.1
    simp only [calculatePhysicalAddress, zero_mul, zero_add, one_mul, add_zero] at hfirst hlast
    obtain ⟨f, hf⟩ := Int.eq_ofNat_of_zero_le hf
    obtain ⟨offset, hoffset⟩ := Int.eq_ofNat_of_zero_le hfirst
    rw [calculatePhysicalAddress, hf, hoffset, hpage]
    exact other_frame_untouched hold.ids (by omega) (by omega)

/-- A store of process 1 at its address 2 is accepted, goes past its frame 0 and
changes a byte of frame 1, which holds the page of process 2. -/
theorem store_changes_neighbour :
    run (siteStep smallConfig) (boot smallConfig zeros zeros) neighbours = some neighbourSite ∧
    (translateLogicalAddress smallCpu 2 (smallPcb 0)).map Prod.snd = some false ∧
    (row neighbourSite.memory ⟨0, 0⟩).map (fun x => (x.presence, x.frameNumber)) =
      some (true, 0) ∧
    (row neighbourSite.memory ⟨1, 0⟩).map (fun y => (y.presence, y.frameNumber)) =
      some (true, 1) ∧
    neighbourSite.memory.principalMemory 4 = 0 ∧
    (attendCpu smallConfig neighbourSite.memory (.movOut 2 4294967295 0 1)).map
      (fun r => r.1.principalMemory 4) = some 255 := by
  refine ⟨neighbour_site_reached, ?_⟩
  decide +kernel

/-- The same process at its address 0. -/
theorem accesses_inside_small :
    (∀ frame, Inside smallCpu (smallPcb 0) frame ⟨16, 0, 0, 0, 0⟩) ∧
      ∀ v x, requestedPage (smallPcb 0).segmentTable 0 0 = some v →
        row neighbourSite.memory v = some x → x.presence = true →
        Isolated smallConfig neighbourSite 1 (calculatePhysicalAddress x.frameNumber 0 4) :=
  (accesses_inside_iff smallConfig small_config_valid smallCpu rfl (by decide) zeros zeros neighbours
    neighbourSite (by decide +kernel) neighbour_site_reached (smallPcb 0)
    (by decide +kernel) 0 ⟨16, 0, 0, 0, 0⟩ (by decide)).mpr
    ⟨by decide, by decide, ⟨0, 0, 8⟩, by decide, by decide⟩

end Geck.PageBounds
