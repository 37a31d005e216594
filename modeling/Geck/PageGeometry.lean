import Geck.ServedAccounts
import Geck.FlatMemory
import Geck.PageBounds

/-!
# One geometry in two programs

The CPU splits a logical address by nested division and remainder; memory cuts a
segment into pages by a ceiling when it builds the table, and divides a physical
address by the page size when it stores. For an address the CPU lets pass the two
speak of the same page.
-/

set_option autoImplicit false

namespace Geck.PageGeometry
open Geck.LabelledRuns Geck.BlockStore Geck.SharedPcb Geck.MemoryState Geck.MemoryPaging
open Geck.MemoryHandlers Geck.MemoryAccounting Geck.MemoryAllocation Geck.MemoryFaults
open Geck.MemorySystem Geck.MemoryIsolation Geck.CpuTranslation Geck.FlatMemory Geck.PageTables
open Geck.ServedAccounts

/-- The only row that changes is that of the page, and it becomes modified. -/
def MarksOnly (m m' : Memory) (v : PageRef) : Prop :=
  ∀ r, row m' r = if r = v then (row m r).map fun x => { x with modified := true } else row m r

/-- Where the translation of an address lies. -/
structure Located (cpu : CpuConfig) (a : ℤ) (params : LogicalAddressParameters) : Prop where
  address : a = params.segmentNumber*params.maxSegmentSize+params.pageNum*cpu.tamPagina+
    params.pageOffset
  offset : 0 ≤ params.pageOffset ∧ params.pageOffset < cpu.tamPagina
  page : 0 ≤ params.pageNum ∧ params.pageNum < cpu.entradasPorTabla
  frame : ∀ f : ℤ, 0 ≤ f →
    (calculatePhysicalAddress f params.pageOffset cpu.tamPagina).tdiv cpu.tamPagina = f

section Geometry
variable {cpu : CpuConfig} {pcb : Pcb} {a : ℤ} {params : LogicalAddressParameters} {sigsegv : Bool}

theorem translation_fields (h0 : 0 ≤ a)
    (ht : translateLogicalAddress cpu a pcb = some (params, sigsegv)) :
    params = {
      maxSegmentSize := cpu.entradasPorTabla*cpu.tamPagina
      segmentNumber := a/(cpu.entradasPorTabla*cpu.tamPagina)
      segmentOffset := a % (cpu.entradasPorTabla*cpu.tamPagina)
      pageNum := a % (cpu.entradasPorTabla*cpu.tamPagina)/cpu.tamPagina
      pageOffset := a % (cpu.entradasPorTabla*cpu.tamPagina) % cpu.tamPagina } ∧
    ∃ segment, listGet pcb.segmentTable params.segmentNumber = some segment ∧
      (sigsegv = false → params.segmentOffset < segment.size) := by
  simp only [translateLogicalAddress, Option.bind_eq_bind, Option.bind_eq_some_iff,
    Option.some.injEq, Prod.mk.injEq] at ht
  obtain ⟨segment, hs, rfl, hflag⟩ := ht
  refine ⟨?_, segment, hs, fun hf => ?_⟩
  · have hoffset : 0 ≤ a.tmod (cpu.entradasPorTabla*cpu.tamPagina) := Int.tmod_nonneg _ h0
    simp only [Int.tdiv_eq_ediv_of_nonneg hoffset, Int.tmod_eq_emod_of_nonneg hoffset]
    simp only [Int.tdiv_eq_ediv_of_nonneg h0, Int.tmod_eq_emod_of_nonneg h0]
  · rw [hf, decide_eq_false_iff_not, not_le] at hflag
    exact hflag

section Sizes
variable (hpage : 0 < cpu.tamPagina) (htable : 0 < cpu.entradasPorTabla) (h0 : 0 ≤ a)
include hpage htable h0

theorem translation_located (ht : translateLogicalAddress cpu a pcb = some (params, sigsegv)) :
    Located cpu a params := by
  obtain ⟨rfl, -⟩ := translation_fields h0 ht
  have hp : (0 : ℤ) < cpu.tamPagina := by exact_mod_cast hpage
  have hspan : (0 : ℤ) < cpu.entradasPorTabla*cpu.tamPagina := by positivity
  have hoffset := Int.emod_nonneg a hspan.ne'
  have hrest := Int.emod_lt_of_pos (a % (cpu.entradasPorTabla*cpu.tamPagina)) hp
  have hrest0 := Int.emod_nonneg (a % (cpu.entradasPorTabla*cpu.tamPagina)) hp.ne'
  refine ⟨?_, ⟨hrest0, hrest⟩, ⟨Int.ediv_nonneg hoffset hp.le, ?_⟩, fun f hf => ?_⟩
  · have hsegment := Int.ediv_mul_add_emod a (cpu.entradasPorTabla*cpu.tamPagina)
    have hin := Int.ediv_mul_add_emod (a % (cpu.entradasPorTabla*cpu.tamPagina)) cpu.tamPagina
    dsimp only
    rw [add_assoc, hin, hsegment]
  · exact Int.ediv_lt_of_lt_mul hp (Int.emod_lt_of_pos a hspan)
  · have hpos : 0 ≤ f*cpu.tamPagina := by positivity
    dsimp only [calculatePhysicalAddress]
    rw [Int.tdiv_eq_ediv_of_nonneg (by omega), Int.add_comm, Int.add_mul_ediv_right _ _ hp.ne',
      Int.ediv_eq_zero_of_lt hrest0 hrest, zero_add]

/-- The segment, the page and the offset give the address back. -/
theorem translation_injective (ht : translateLogicalAddress cpu a pcb = some (params, sigsegv))
    {b : ℤ} (hb : 0 ≤ b) {params' : LogicalAddressParameters} {sigsegv' : Bool}
    (ht' : translateLogicalAddress cpu b pcb = some (params', sigsegv'))
    (hsegment : params'.segmentNumber = params.segmentNumber)
    (hnum : params'.pageNum = params.pageNum) (hoff : params'.pageOffset = params.pageOffset) :
    b = a := by
  have hspan : params'.maxSegmentSize = params.maxSegmentSize := by
    rw [(translation_fields h0 ht).1, (translation_fields hb ht').1]
  rw [(translation_located hpage htable h0 ht).address,
    (translation_located hpage htable hb ht').address, hsegment, hnum, hoff, hspan]

/-- Below the size of a segment every page is one memory has cut. -/
theorem page_below_frames {cfg : MemoryConfig} (hsent : cpu.tamPagina = cfg.tamPagina)
    (ht : translateLogicalAddress cpu a pcb = some (params, false)) :
    ∃ segment, listGet pcb.segmentTable params.segmentNumber = some segment ∧
      params.pageNum < calculateFramesOfSegment cfg segment.size := by
  obtain ⟨hfields, segment, hs, hsize⟩ := translation_fields h0 ht
  have hlt := hsize rfl
  refine ⟨segment, hs, ?_⟩
  have hnum : params.pageNum = params.segmentOffset/cfg.tamPagina := by
    rw [hfields]
    simp only [hsent]
  have hp : (0 : ℤ) < cfg.tamPagina := by
    rw [hsent] at hpage
    exact_mod_cast hpage
  have hoffset : 0 ≤ params.segmentOffset := by
    rw [hfields]
    exact Int.emod_nonneg _ (by positivity)
  have hsize0 : 0 ≤ segment.size := by omega
  rw [hnum, calculateFramesOfSegment, Int.tdiv_eq_ediv_of_nonneg hsize0,
    Int.tmod_eq_emod_of_nonneg hsize0]
  split
  · exact Int.lt_add_one_of_le (Int.ediv_le_ediv hp hlt.le)
  · next hwhole =>
    have hsplit := Int.ediv_mul_add_emod segment.size cfg.tamPagina
    exact Int.ediv_lt_of_lt_mul hp (by omega)

end Sizes

end Geometry

/-- A store in the frame of a resident page marks that page, if no other page of the table
is in the frame. -/
theorem store_marks {cfg : MemoryConfig} {m m' : Memory} {v : PageRef} {x : PageTableRow} {a : ℤ}
    {value : UInt32} (hid : ∀ (i : ℕ) t, m.allPageTables[i]? = some t → t.id = i)
    (hx : row m v = some x) (hp : x.presence = true) (hframe : a.tdiv cfg.tamPagina = x.frameNumber)
    (honly : ∀ i y, row m ⟨v.table, i⟩ = some y → y.presence = true →
      y.frameNumber = x.frameNumber → i = v.page)
    (h : saveValueInMemory cfg m a value v.table = some m') : MarksOnly m m' v := by
  obtain ⟨t, table, i, hindex, htable, hi, rfl⟩ := save_value_found hid h
  obtain rfl : v.table = t := by exact_mod_cast hindex
  have hrow (j : ℕ) : row m ⟨v.table, j⟩ = table.pagesList[j]? := by simp [row, htable]
  obtain ⟨j, y, hj, hy, hfy, hpy⟩ :=
    search_row_finds 0 ((hrow v.page).symm.trans hx) hframe.symm hp
  obtain rfl : j = v.page := honly j y ((hrow j).trans hy) hpy (hfy.trans hframe)
  obtain rfl : i = v.page := by
    rw [hi, zero_add] at hj
    exact Option.some.inj hj
  exact fun r => row_modify m v r _

/-- A store at the translated address marks the translated page, whatever it writes. -/
def StoreMarks (cfg : MemoryConfig) (cpu : CpuConfig) (pcb : Pcb) (params : LogicalAddressParameters)
    (m : Memory) (v : PageRef) (f : ℤ) : Prop :=
  ∀ segment value m', listGet pcb.segmentTable params.segmentNumber = some segment →
    saveValueInMemory cfg m (calculatePhysicalAddress f params.pageOffset cpu.tamPagina) value
      segment.indexPage = some m' → MarksOnly m m' v

structure Agrees (cfg : MemoryConfig) (cpu : CpuConfig) (pcb : Pcb) (a : ℤ)
    (params : LogicalAddressParameters) : Prop where
  located : Located cpu a params
  listed : ∃ segment, listGet pcb.segmentTable params.segmentNumber = some segment ∧
    ∀ id number bitmap table bitmap', builderPageTable cfg id segment.size number bitmap =
      some (table, bitmap') → params.pageNum < table.pagesList.length
  distinct : ∀ b params' sigsegv, 0 ≤ b →
    translateLogicalAddress cpu b pcb = some (params', sigsegv) →
    params'.segmentNumber = params.segmentNumber → params'.pageNum = params.pageNum →
    params'.pageOffset = params.pageOffset → b = a
  marks : ∀ m v x, Tabled m →
    requestedPage pcb.segmentTable params.segmentNumber params.pageNum = some v →
    row m v = some x → x.presence = true → 0 ≤ x.frameNumber →
    (∀ i y, row m ⟨v.table, i⟩ = some y → y.presence = true → y.frameNumber = x.frameNumber →
      i = v.page) → StoreMarks cfg cpu pcb params m v x.frameNumber

theorem translation_agrees {cfg : MemoryConfig} {cpu : CpuConfig} (hpage : 0 < cfg.tamPagina)
    (htable : 0 < cpu.entradasPorTabla) (hsent : cpu.tamPagina = cfg.tamPagina) {pcb : Pcb} {a : ℤ}
    (h0 : 0 ≤ a) {params : LogicalAddressParameters}
    (ht : translateLogicalAddress cpu a pcb = some (params, false)) :
    Agrees cfg cpu pcb a params := by
  have hpage' : 0 < cpu.tamPagina := hsent ▸ hpage
  have hlocated := translation_located hpage' htable h0 ht
  obtain ⟨segment, hs, hlt⟩ := page_below_frames hpage' htable h0 hsent ht
  refine ⟨hlocated, ⟨segment, hs, fun id number bitmap table bitmap' hbuild => ?_⟩,
    fun b params' sigsegv hb ht' => translation_injective hpage' htable h0 ht hb ht',
    fun m v x htabled hv hx hp hf honly segment value m' hs hsave => ?_⟩
  · simp only [builderPageTable, Option.bind_eq_bind, Option.bind_eq_some_iff, Option.some.injEq,
      Prod.mk.injEq] at hbuild
    obtain ⟨⟨rows, _⟩, hrows, rfl, -⟩ := hbuild
    have hlength := builder_rows_length _ hrows
    have hnonneg := hlocated.page.1
    show params.pageNum < (rows.length : ℤ)
    omega
  · obtain ⟨segment', hs', hindex, -⟩ := requested_segment hv
    obtain rfl := Option.some.inj (hs.symm.trans hs')
    rw [hindex] at hsave
    exact store_marks htabled.ids hx hp (hsent ▸ hlocated.frame x.frameNumber hf) honly hsave

/-- The CPU and memory agree on every address the CPU lets pass; and in the states memory
reaches a store marks the row of the translated page. -/
theorem cpu_and_memory_agree (cfg : MemoryConfig) (cpu : CpuConfig) (hpage : 0 < cfg.tamPagina)
    (htable : 0 < cfg.entradasPorTabla) (hsent : cpu.tamPagina = cfg.tamPagina ∧
      cpu.entradasPorTabla = cfg.entradasPorTabla) (pcb : Pcb) (a : ℤ) (h0 : 0 ≤ a)
    (params : LogicalAddressParameters)
    (ht : translateLogicalAddress cpu a pcb = some (params, false)) :
    Agrees cfg cpu pcb a params ∧
      (1 ≤ cfg.marcosPorProceso → ∀ ram swap requests s,
        Guarded (siteStep cfg) AskedRequest (boot cfg ram swap) requests →
        run (siteStep cfg) (boot cfg ram swap) requests = some s →
        s.live pcb.processId = some pcb.segmentTable →
        ∀ v x, requestedPage pcb.segmentTable params.segmentNumber params.pageNum = some v →
          row s.memory v = some x → x.presence = true →
          StoreMarks cfg cpu pcb params s.memory v x.frameNumber) := by
  have hagrees := translation_agrees hpage (hsent.2 ▸ htable) hsent.1 h0 ht
  refine ⟨hagrees, fun hframes ram swap requests s hg h hl v x hv hx hp => ?_⟩
  have hold := (accounts_served hframes ram swap requests s hg h).holdings
  have hlive : LiveRow s.memory s.live pcb.processId v x := ⟨requested_owned hl hv, hx⟩
  refine hagrees.marks s.memory v x ⟨hold.ids, hold.counter⟩ hv hx hp
    (marked_range (hold.frameMarked _ v x hlive hp)).1 fun i y hy hpy hfy => ?_
  have hsame := hold.frameUnique _ _ ⟨v.table, i⟩ v y x ⟨hlive.1, hy⟩ hlive hpy hp hfy
  exact congrArg PageRef.page hsame

def secondByte : LogicalAddressParameters := ⟨16, 0, 1, 0, 1⟩

theorem cpu_and_memory_agree_small :
    Agrees smallConfig smallCpu (smallPcb 0) 1 secondByte ∧
      ∃ x, row smallSite.memory ⟨0, 0⟩ = some x ∧
        StoreMarks smallConfig smallCpu (smallPcb 0) secondByte smallSite.memory ⟨0, 0⟩
          x.frameNumber := by
  obtain ⟨hagrees, hreached⟩ := cpu_and_memory_agree smallConfig smallCpu (by decide) (by decide)
    (by decide) (smallPcb 0) 1 (by decide) secondByte (by decide)
  have hpresent : (row smallSite.memory ⟨0, 0⟩).any PageTableRow.presence = true := by decide +kernel
  obtain ⟨x, hx, hp⟩ := (Option.any_eq_true _ _).mp hpresent
  exact ⟨hagrees, x, hx, hreached (by decide) zeros zeros smallRequests smallSite
    (by decide +kernel) small_site_reached (by decide +kernel) ⟨0, 0⟩ x (by decide) hx hp⟩

end Geck.PageGeometry
