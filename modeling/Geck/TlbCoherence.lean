import Geck.MemoryIsolation
import Geck.CpuTranslation

/-!
# The TLB beside the page tables

The CPU adds a row to the TLB when memory answers a frame request, and memory
never tells it that a page was evicted. The rows agree with the page tables for
exactly as long as no fault evicts a page that has a row.
-/

set_option autoImplicit false

namespace Geck.TlbCoherence
open Geck.LabelledRuns Geck.BlockStore Geck.SharedPcb Geck.MemoryState Geck.MemoryPaging
open Geck.MemoryHandlers Geck.MemoryReplacement Geck.MemoryAccounting Geck.MemoryAllocation
open Geck.MemoryFaults Geck.MemorySystem Geck.MemoryIsolation Geck.CpuTranslation

structure Machine where
  tlb : List RowTlb
  site : Site

/-- A translation of the CPU, or a request memory serves: the loads and stores
that follow a translation are requests of the CPU. -/
inductive Event where
  | translate (pcb : Pcb) (params : LogicalAddressParameters) (times : Readings)
  | request (q : Request)
  deriving DecidableEq, Repr

def frameAnswer (cfg : MemoryConfig) (m : Memory) (pcb : Pcb) (params : LogicalAddressParameters) :
    Option CpuResponse :=
  (attendCpu cfg m (.frameRequest pcb params.pageNum params.segmentNumber)).map Prod.snd

def machineStep (cpu : CpuConfig) (cfg : MemoryConfig) (s : Machine) : Event → Option Machine
  | .translate pcb params times => do
    let (_, tlb, _) ← buildPhysicalAddress cpu s.tlb (frameAnswer cfg s.site.memory pcb params)
      times params pcb
    some { s with tlb := tlb }
  | .request q => do
    let site ← siteStep cfg s.site q
    some { s with site := site }

def bootMachine (cpu : CpuConfig) (cfg : MemoryConfig) (ram swap : ℕ → UInt8) (time : TimeVal) :
    Machine :=
  ⟨initTlb cpu time, boot cfg ram swap⟩

/-- The kernel numbers processes from 1 and never uses a number again, and a
translation is for a live process with its own segment table. -/
def AllowedEvent (cfg : MemoryConfig) (s : Machine) : Event → Prop
  | .translate pcb _ _ => s.site.live pcb.processId = some pcb.segmentTable
  | .request q => Allowed cfg s.site q ∧
    match q with
    | .kernel (.initProcessStructuresMemory pcb) => 1 ≤ pcb.processId ∧
      (s.site.memory.clockStructures pcb.processId).isNone
    | _ => True

instance (cfg : MemoryConfig) (s : Machine) : ∀ e, Decidable (AllowedEvent cfg s e)
  | .translate .. => inferInstanceAs (Decidable (_ = _))
  | .request (.kernel (.initProcessStructuresMemory _)) => inferInstanceAs (Decidable (_ ∧ _ ∧ _))
  | .request (.kernel (.requestPageFault ..)) => inferInstanceAs (Decidable (_ ∧ True))
  | .request (.kernel (.endStructures _)) => inferInstanceAs (Decidable (_ ∧ True))
  | .request (.cpu _) => inferInstanceAs (Decidable (_ ∧ True))

/-- The page table of the process has that page present in that frame. -/
def Mapped (m : Memory) (segments : List Segment) (segment page frame : ℤ) : Prop :=
  ∃ v x, requestedPage segments segment page = some v ∧ row m v = some x ∧
    x.presence = true ∧ x.frameNumber = frame

def Coherent (s : Machine) : Prop :=
  ∀ pid segment page frame, (pid, segment, page, frame) ∈ s.tlb.map mapping →
    ∀ segments, s.site.live pid = some segments → Mapped s.site.memory segments segment page frame

/-- The address and fault memory's own answer gives. -/
def memoryAddress (cpu : CpuConfig) (cfg : MemoryConfig) (m : Memory) (pcb : Pcb)
    (params : LogicalAddressParameters) : Option (ℤ × Bool) := do
  let response ← frameAnswer cfg m pcb params
  let (frame, fault) ← findFrame response
  some (if frame = -1 then -1 else frame*cpu.tamPagina+params.pageOffset, fault)

/-- Every translation gives what asking memory would give. -/
def TranslatesAsMemory (cpu : CpuConfig) (cfg : MemoryConfig) (s : Machine) : Prop :=
  ∀ pcb params times, s.site.live pcb.processId = some pcb.segmentTable →
    (buildPhysicalAddress cpu s.tlb (frameAnswer cfg s.site.memory pcb params) times params pcb).map
      (fun r => (r.1, r.2.2)) = memoryAddress cpu cfg s.site.memory pcb params

/-- The page the fault would evict has a row in the TLB. -/
def EvictsCached (cfg : MemoryConfig) (s : Machine) (pcb : Pcb) : Prop :=
  ∃ m' f r x x' segment page frame, chooseFrame cfg s.site.memory pcb.processId = some (m', f) ∧
    row s.site.memory r = some x ∧ x.presence = true ∧
    row m' r = some x' ∧ x'.presence = false ∧
    (pcb.processId, segment, page, frame) ∈ s.tlb.map mapping ∧
    requestedPage pcb.segmentTable segment page = some r

def NoCachedVictim (cfg : MemoryConfig) (s : Machine) : Event → Prop
  | .request (.kernel (.requestPageFault pcb _ _)) => ¬EvictsCached cfg s pcb
  | _ => True

structure Grounded (cpu : CpuConfig) (cfg : MemoryConfig) (s : Machine) : Prop where
  accounts : Accounts cfg s.site.memory s.site.live
  size : s.tlb.length = cpu.entradasTlb
  known : ∀ entry ∈ s.tlb.map mapping, entry.1 = -1 ∨
    s.site.memory.clockStructures entry.1 ≠ none
  numbered : ∀ pid segments, s.site.live pid = some segments → 1 ≤ pid

theorem frame_number_answer {cfg : MemoryConfig} {m : Memory} {live : Live}
    (hold : Holdings cfg m live) {pcb : Pcb} (hl : live pcb.processId = some pcb.segmentTable)
    {params : LogicalAddressParameters} {response : CpuResponse}
    (h : frameAnswer cfg m pcb params = some response) :
    (response = .pageFault (-1) ∧ ∀ frame,
      ¬Mapped m pcb.segmentTable params.segmentNumber params.pageNum frame) ∨
    ∃ frame, response = .frameResponse frame ∧ frame ≠ -1 ∧
      Mapped m pcb.segmentTable params.segmentNumber params.pageNum frame := by
  simp only [frameAnswer, attendCpu, getFrameNumberRAM, Option.map_eq_some_iff,
    Option.bind_eq_bind, Option.bind_eq_some_iff] at h
  obtain ⟨⟨m', response⟩, ⟨f, ⟨segment, hs, hf⟩, hr⟩, rfl⟩ := h
  have hrange := hold.inRange _ _ hl segment.indexPage (List.mem_map_of_mem (list_get_mem hs))
  obtain ⟨t, ht⟩ := Int.eq_ofNat_of_zero_le hrange.1
  have hlt : t < m.allPageTables.length := by omega
  rw [ht, table_lookup hold.ids t hlt] at hf
  simp only [List.getElem?_eq_getElem hlt, Option.bind_some, Option.bind_eq_some_iff] at hf
  obtain ⟨x, hx, hf⟩ := hf
  obtain ⟨h0, hx⟩ := list_get_some hx
  have hv : requestedPage pcb.segmentTable params.segmentNumber params.pageNum =
      some ⟨t, params.pageNum.toNat⟩ := by
    simp [requestedPage, hs, ht, h0]
  have hrow : row m ⟨t, params.pageNum.toNat⟩ = some x := by
    simpa [row, List.getElem?_eq_getElem hlt] using hx
  cases hp : x.presence with
  | false =>
    obtain rfl : f = -1 := by simpa [hp, eq_comm] using hf
    left
    have hr : m = m' ∧ .pageFault (-1) = response := by simpa using hr
    refine ⟨hr.2.symm, ?_⟩
    rintro frame ⟨v, y, hv', hy, hpy, _⟩
    obtain rfl := Option.some.inj (hv.symm.trans hv')
    obtain rfl := Option.some.inj (hrow.symm.trans hy)
    simp [hp] at hpy
  | true =>
    obtain rfl : f = x.frameNumber := by simpa [hp, eq_comm] using hf
    have hpos := (marked_range (hold.frameMarked _ _ x ⟨requested_owned hl hv, hrow⟩ hp)).1
    have hne : x.frameNumber ≠ -1 := by omega
    right
    have hr : m = m' ∧ .frameResponse x.frameNumber = response := by simpa [hne] using hr
    exact ⟨x.frameNumber, hr.2.symm, hne, _, x, hv, hrow, hp, rfl⟩

theorem mapped_answer {cfg : MemoryConfig} {m : Memory} {live : Live}
    (hold : Holdings cfg m live) {pcb : Pcb} (hl : live pcb.processId = some pcb.segmentTable)
    {params : LogicalAddressParameters} {frame : ℤ}
    (h : Mapped m pcb.segmentTable params.segmentNumber params.pageNum frame) :
    frame ≠ -1 ∧ frameAnswer cfg m pcb params = some (.frameResponse frame) := by
  obtain ⟨v, x, hv, hx, hp, rfl⟩ := h
  obtain ⟨segment, hs, hi, hn⟩ := requested_segment hv
  have hlt := owns_lt hold (requested_owned hl hv)
  have hpage : ((m.allPageTables[v.table]).pagesList)[v.page]? = some x := by
    simpa [row, List.getElem?_eq_getElem hlt] using hx
  have hpos := (marked_range (hold.frameMarked _ _ x ⟨requested_owned hl hv, hx⟩ hp)).1
  have hne : x.frameNumber ≠ -1 := by omega
  exact ⟨hne, by simp [frameAnswer, attendCpu, getFrameNumberRAM, hs, hi,
    table_lookup hold.ids v.table hlt, List.getElem?_eq_getElem hlt, hn, list_get_nat, hpage, hp,
    hne]⟩

/-- A coherent TLB never changes what a translation gives. -/
theorem coherent_translates {cpu : CpuConfig} {cfg : MemoryConfig} {s : Machine}
    (hg : Grounded cpu cfg s) (hc : Coherent s) : TranslatesAsMemory cpu cfg s := by
  intro pcb params times hl
  obtain ⟨frame, tlb, hp, _, hmem⟩ := present_in_tlb_found cpu s.tlb params.pageNum
    params.segmentNumber pcb.processId times.lookup hg.size.ge
  by_cases hne : frame = -1
  · subst hne
    simp only [buildPhysicalAddress, hp, memoryAddress, Option.bind_eq_bind, Option.bind_some,
      if_true]
    cases frameAnswer cfg s.site.memory pcb params with
    | none => rfl
    | some response =>
      simp only [Option.bind_some]
      cases findFrame response with
      | none => rfl
      | some r =>
        obtain ⟨f, fault⟩ := r
        by_cases hf : f = -1 <;> simp [hf]
  · obtain ⟨_, hanswer⟩ := mapped_answer hg.accounts.holdings hl
      (hc _ _ _ _ (hmem.resolve_left hne) _ hl)
    simp [buildPhysicalAddress, hp, hne, memoryAddress, hanswer, findFrame, calculatePhysicalAddress]

/-- A translation keeps the rows of the TLB, or adds one for a frame memory has
just answered. -/
theorem translate_rows {cpu : CpuConfig} (hcpu : ReplacesRows cpu) {cfg : MemoryConfig}
    {s : Machine} (hg : Grounded cpu cfg s) {pcb : Pcb} {params : LogicalAddressParameters}
    {times : Readings} {t : Machine} (hl : s.site.live pcb.processId = some pcb.segmentTable)
    (h : machineStep cpu cfg s (.translate pcb params times) = some t) :
    t.site = s.site ∧ t.tlb.length = cpu.entradasTlb ∧
      ∀ entry ∈ t.tlb.map mapping, entry ∈ s.tlb.map mapping ∨ ∃ frame,
        entry = (pcb.processId, params.segmentNumber, params.pageNum, frame) ∧
        Mapped s.site.memory pcb.segmentTable params.segmentNumber params.pageNum frame := by
  obtain ⟨frame, tlb, hp, hsame, _⟩ := present_in_tlb_found cpu s.tlb params.pageNum
    params.segmentNumber pcb.processId times.lookup hg.size.ge
  have hlen : tlb.length = cpu.entradasTlb := by
    rw [← hg.size]
    simpa using congrArg List.length hsame
  simp only [machineStep, buildPhysicalAddress, hp, Option.bind_eq_bind, Option.bind_some] at h
  by_cases hne : frame = -1
  · simp only [hne, if_true, Option.bind_eq_some_iff] at h
    obtain ⟨result, ⟨response, hr, ⟨f, fault⟩, hf, hresult⟩, ht⟩ := h
    obtain rfl := Option.some.inj ht
    obtain ⟨rfl, _⟩ | ⟨f', rfl, hf', hmapped⟩ := frame_number_answer hg.accounts.holdings hl hr
    · obtain ⟨rfl, rfl⟩ : -1 = f ∧ true = fault := by simpa [findFrame] using hf
      obtain rfl : _ = result := by simpa using hresult
      exact ⟨rfl, hlen, fun entry he => Or.inl (hsame ▸ he)⟩
    · obtain ⟨rfl, rfl⟩ : f' = f ∧ false = fault := by simpa [findFrame] using hf
      obtain rfl : _ = result := by simpa [hf'] using hresult
      refine ⟨rfl, add_to_tlb_length hcpu tlb _ _ _ _ _ hlen, fun entry he => ?_⟩
      obtain ⟨row, hrow, rfl⟩ := List.mem_map.mp he
      obtain hrow | rfl := add_to_tlb_mem hcpu.sorted hrow
      · exact Or.inl (hsame ▸ List.mem_map_of_mem hrow)
      · exact Or.inr ⟨f', rfl, hmapped⟩
  · simp only [hne, if_false, Option.bind_some, Option.some.injEq] at h
    subst h
    exact ⟨rfl, hlen, fun entry he => Or.inl (hsame ▸ he)⟩

theorem mapped_same {m m' : Memory} (h : SameHoldings m m') {segments : List Segment}
    {segment page frame : ℤ} (hm : Mapped m segments segment page frame) :
    Mapped m' segments segment page frame := by
  obtain ⟨v, x, hv, hx, hp, hf⟩ := hm
  have hr := h.rows v
  rw [hx] at hr
  obtain ⟨y, hy, he⟩ := Option.map_eq_some_iff.mp hr
  simp only [holding, Prod.mk.injEq] at he
  exact ⟨v, y, hv, hy, he.2.2.trans hp, he.1.trans hf⟩

section Requests
variable {cpu : CpuConfig} {cfg : MemoryConfig} (valid : ValidConfig cfg) {s t : Machine}
  (hg : Grounded cpu cfg s)
include valid hg

theorem fault_step {pcb : Pcb} {sn pn : ℤ}
    (hq : AllowedKernel cfg s.site (.requestPageFault pcb sn pn)) :
    ∃ m' f m₂ c c₂ v x, machineStep cpu cfg s (.request (.kernel (.requestPageFault pcb sn pn))) =
        some ⟨s.tlb, m', s.site.live⟩ ∧ s.site.live pcb.processId = some pcb.segmentTable ∧
      chooseFrame cfg s.site.memory pcb.processId = some (m₂, f) ∧
      Served cfg s.site.memory m' s.site.live pcb.processId v x f m₂ c c₂ := by
  obtain ⟨⟨v, x, hv⟩, hfree⟩ := hq
  obtain ⟨m', f, m₂, c, c₂, hr, hchoose, hserved⟩ :=
    page_fault_served valid hg.accounts hv hfree
  exact ⟨m', f, m₂, c, c₂, v, x, by simp [machineStep, siteStep, attendKernel, hr, kernelLive],
    hv.alive, hchoose, hserved⟩

/-- A fault keeps a coherent TLB coherent exactly when it evicts no cached page. -/
theorem fault_coherent {pcb : Pcb} {sn pn : ℤ} (hc : Coherent s)
    (hq : AllowedKernel cfg s.site (.requestPageFault pcb sn pn))
    (h : machineStep cpu cfg s (.request (.kernel (.requestPageFault pcb sn pn))) = some t) :
    Coherent t ↔ ¬EvictsCached cfg s pcb := by
  obtain ⟨m', f, m₂, c, c₂, v, x, hstep, hl, hchoose, hserved⟩ := fault_step valid hg hq
  obtain rfl := Option.some.inj (hstep.symm.trans h)
  obtain ⟨c', hc', hm⟩ := hg.accounts.clocks _ _ hl
  obtain rfl := Option.some.inj (hserved.clock.symm.trans hc')
  obtain ⟨victim, hleaves⟩ := room_leaves hg.accounts.holdings hm hserved.room
  constructor
  · rintro hct ⟨m₃, f', r, y, y', segment, page, frame, hch, hy, hp, hy', hp', hmem, hr⟩
    obtain ⟨rfl, rfl⟩ : m₂ = m₃ ∧ f = f' := by simpa [hchoose] using hch
    obtain ⟨w, z, hw, hz, hpz, _⟩ := hct _ _ _ _ hmem _ hl
    obtain rfl := Option.some.inj (hr.symm.trans hw)
    have hne : r ≠ v := by
      rintro rfl
      obtain rfl := Option.some.inj (hy.symm.trans hserved.target.2)
      simp [hserved.absent] at hp
    obtain rfl := Option.some.inj (hz.symm.trans ((hserved.loaded.others r hne).trans hy'))
    simp [hp'] at hpz
  · intro hno pid segment page frame hmem segments hlive
    obtain ⟨w, y, hw, hy, hp, hf⟩ := hc _ _ _ _ hmem segments hlive
    have hown : LiveRow s.site.memory s.site.live pid w y := ⟨requested_owned hlive hw, hy⟩
    have hne : w ≠ v := by
      rintro rfl
      obtain ⟨_, rfl⟩ := live_row_owner hg.accounts.holdings hown hserved.target
      simp [hserved.absent] at hp
    have hvictim : victim ≠ some w := by
      intro he
      obtain ⟨z, z', hz, hpz, hz', hpz'⟩ := hleaves.evicted w he
      obtain ⟨rfl, rfl⟩ := live_row_owner hg.accounts.holdings hown hz
      obtain rfl := Option.some.inj (hl.symm.trans hlive)
      exact hno ⟨m₂, f, w, y, z', segment, page, frame, hchoose, hy, hp, hz', hpz', hmem, hw⟩
    obtain ⟨hrow, _⟩ := served_keeps hg.accounts hserved hleaves hown hne hvictim
    obtain hrow | ⟨_, hrow⟩ := hrow
    · exact ⟨w, y, hw, hrow, hp, hf⟩
    · exact ⟨w, withoutUse y, hw, hrow, hp, hf⟩

/-- The clocks in the dictionary are never removed. -/
theorem request_clocks {q : Request} {s' : Site} (hq : Allowed cfg s.site q)
    (h : siteStep cfg s.site q = some s') (pid : ℤ)
    (hpid : s.site.memory.clockStructures pid ≠ none) : s'.memory.clockStructures pid ≠ none := by
  have hupdate (p : ℤ) (c : ClockStruct) :
      Function.update s.site.memory.clockStructures p (some c) pid ≠ none := by
    by_cases hp : pid = p
    · simp [hp]
    · simpa [hp] using hpid
  match q, hq with
  | .kernel (.initProcessStructuresMemory pcb), hq =>
    obtain ⟨segments, m', hi, hext, _⟩ := init_served valid hg.accounts pcb hq.1 hq.2
    obtain rfl : _ = s' := by simpa [siteStep, attendKernel, hi] using h
    simp only [hext.clocks]
    exact hupdate _ _
  | .kernel (.requestPageFault pcb sn pn), hq =>
    obtain ⟨⟨v, x, hv⟩, hfree⟩ := hq
    obtain ⟨m', f, m₂, c, c₂, hr, _, hserved⟩ := page_fault_served valid hg.accounts hv hfree
    obtain rfl : _ = s' := by simpa [siteStep, attendKernel, hr] using h
    simp only [hserved.loaded.clocks, room_clocks hserved.clock hserved.room, Function.update_idem]
    exact hupdate _ _
  | .kernel (.endStructures pcb), hq =>
    obtain ⟨memory, swap, hd, _⟩ := end_served hg.accounts pcb hq
    obtain rfl : _ = s' := by simpa [siteStep, attendKernel, hd] using h
    exact hpid
  | .cpu q, _ =>
    simp only [siteStep, Option.bind_eq_bind, Option.bind_eq_some_iff] at h
    obtain ⟨⟨m', answer⟩, hm', h⟩ := h
    obtain rfl := Option.some.inj h
    simpa [(cpu_same_holdings hg.accounts.holdings.ids hm').clocks] using hpid

omit valid in
theorem request_numbered {q : Request} {s' : Site} (hq : AllowedEvent cfg s (.request q))
    (h : siteStep cfg s.site q = some s') (pid : ℤ) (segments : List Segment)
    (hl : s'.live pid = some segments) : 1 ≤ pid := by
  obtain ⟨request, m', answer, rfl, -, rfl⟩ | ⟨pcb, built, m', rfl, -, rfl⟩ |
    ⟨pcb, sn, pn, m', answer, rfl, -, rfl⟩ | ⟨pcb, m', rfl, -, rfl⟩ := site_step_cases h
  · exact hg.numbered pid segments hl
  · by_cases hp : pid = pcb.processId
    · exact hp ▸ hq.2.1
    · exact hg.numbered pid segments (by simpa [hp] using hl)
  · exact hg.numbered pid segments hl
  · by_cases hp : pid = pcb.processId
    · simp [hp] at hl
    · exact hg.numbered pid segments (by simpa [hp] using hl)

theorem grounded_step (hcpu : ReplacesRows cpu) (e : Event) (he : AllowedEvent cfg s e)
    (h : machineStep cpu cfg s e = some t) : Grounded cpu cfg t := by
  cases e with
  | translate pcb params times =>
    obtain ⟨hsite, hsize, hrows⟩ := translate_rows hcpu hg he h
    rw [show t = ⟨t.tlb, s.site⟩ by rw [← hsite]]
    refine ⟨hg.accounts, hsize, fun entry hentry => ?_, hg.numbered⟩
    obtain hold | ⟨frame, rfl, _⟩ := hrows entry hentry
    · exact hg.known entry hold
    · obtain ⟨c, hc, _⟩ := hg.accounts.clocks _ _ he
      exact Or.inr (by simp [hc])
  | request q =>
    simp only [machineStep, Option.bind_eq_bind, Option.bind_eq_some_iff] at h
    obtain ⟨site, hsite, h⟩ := h
    obtain rfl := Option.some.inj h
    exact ⟨site_step_accounts valid s.site q site hg.accounts he.1 hsite, hg.size,
      fun entry hentry => (hg.known entry hentry).imp_right
        (request_clocks valid hg he.1 hsite entry.1),
      request_numbered hg he hsite⟩

/-- No other event makes a coherent TLB incoherent. -/
theorem step_coherent (hcpu : ReplacesRows cpu) (hc : Coherent s) (e : Event)
    (he : AllowedEvent cfg s e)
    (hfault : ∀ pcb sn pn, e ≠ .request (.kernel (.requestPageFault pcb sn pn)))
    (h : machineStep cpu cfg s e = some t) : Coherent t := by
  match e, he with
  | .translate pcb params times, he =>
    obtain ⟨hsite, _, hrows⟩ := translate_rows hcpu hg he h
    intro pid segment page frame hmem segments hl
    rw [hsite] at hl ⊢
    obtain hold | ⟨f, heq, hmapped⟩ := hrows _ hmem
    · exact hc pid segment page frame hold segments hl
    · simp only [Prod.mk.injEq] at heq
      obtain ⟨rfl, rfl, rfl, rfl⟩ := heq
      obtain rfl := Option.some.inj (hl.symm.trans he)
      exact hmapped
  | .request (.kernel (.requestPageFault pcb sn pn)), _ => exact absurd rfl (hfault pcb sn pn)
  | .request (.kernel (.initProcessStructuresMemory pcb)), he =>
    obtain ⟨table, m', hi, hext, _⟩ := init_served valid hg.accounts pcb he.1.1 he.1.2
    obtain rfl : _ = t := by simpa [machineStep, siteStep, attendKernel, hi] using h
    intro pid segment page frame hmem segments hl
    have hne : pid ≠ pcb.processId := by
      rintro rfl
      have hpos := he.2.1
      obtain hminus | hknown := hg.known _ hmem
      · simp only at hminus
        omega
      · exact hknown (Option.isNone_iff_eq_none.mp he.2.2)
    have hl' : s.site.live pid = some segments := by simpa [kernelLive, hne] using hl
    obtain ⟨v, x, hv, hx, hrest⟩ := hc pid segment page frame hmem segments hl'
    refine ⟨v, x, hv, ?_, hrest⟩
    exact (hext.old v (owns_lt hg.accounts.holdings (requested_owned hl' hv))).trans hx
  | .request (.kernel (.endStructures pcb)), he =>
    obtain ⟨memory, swap, hd, _⟩ := end_served hg.accounts pcb he.1
    obtain rfl : _ = t := by simpa [machineStep, siteStep, attendKernel, hd] using h
    intro pid segment page frame hmem segments hl
    have hne : pid ≠ pcb.processId := by
      rintro rfl
      simp [kernelLive] at hl
    exact hc pid segment page frame hmem segments (by simpa [kernelLive, hne] using hl)
  | .request (.cpu q), _ =>
    simp only [machineStep, siteStep, Option.bind_eq_bind, Option.bind_eq_some_iff] at h
    obtain ⟨site, ⟨⟨m', answer⟩, hm', hsite⟩, h⟩ := h
    obtain rfl := Option.some.inj hsite
    obtain rfl := Option.some.inj h
    exact fun pid segment page frame hmem segments hl => mapped_same
      (cpu_same_holdings hg.accounts.holdings.ids hm') (hc pid segment page frame hmem segments hl)

end Requests

theorem boot_grounded {cpu : CpuConfig} {cfg : MemoryConfig} (valid : ValidConfig cfg)
    (ram swap : ℕ → UInt8) (time : TimeVal) :
    Grounded cpu cfg (bootMachine cpu cfg ram swap time) := by
  refine ⟨boot_accounts valid ram swap, by simp [bootMachine, initTlb], fun entry he => ?_,
    by simp [bootMachine, boot]⟩
  left
  simp only [bootMachine, initTlb, List.map_replicate] at he
  rw [(List.mem_replicate.mp he).2]
  rfl

/-- In a run from the start every state has a coherent TLB, which translates as
memory would, if and only if no page fault evicts a page that has a row in it. -/
theorem tlb_coherent_iff (cpu : CpuConfig) (cfg : MemoryConfig) (valid : ValidConfig cfg)
    (hcpu : ReplacesRows cpu) (ram swap : ℕ → UInt8) (time : TimeVal) (events : List Event)
    (ha : Guarded (machineStep cpu cfg) (AllowedEvent cfg) (bootMachine cpu cfg ram swap time)
      events) :
    Always (machineStep cpu cfg) (fun s => Coherent s ∧ TranslatesAsMemory cpu cfg s)
        (bootMachine cpu cfg ram swap time) events ↔
      Guarded (machineStep cpu cfg) (NoCachedVictim cfg) (bootMachine cpu cfg ram swap time)
        events := by
  have hboot : Grounded cpu cfg (bootMachine cpu cfg ram swap time) :=
    boot_grounded valid ram swap time
  have hcoherent : Coherent (bootMachine cpu cfg ram swap time) := by
    intro pid segment page frame hmem segments hl
    simp [bootMachine, boot] at hl
  refine always_iff_guarded (machineStep cpu cfg) (Grounded cpu cfg) _ (AllowedEvent cfg) _
    (fun s e t hg he h => grounded_step valid hg hcpu e he h) (fun s e t hg hp he h => ?_)
    (fun s e hg he h => ?_) events _ hboot ⟨hcoherent, coherent_translates hboot hcoherent⟩ ha
  · have hgt := grounded_step valid hg hcpu e he h
    have hboth : Coherent t ∧ TranslatesAsMemory cpu cfg t ↔ Coherent t :=
      and_iff_left_of_imp (coherent_translates hgt)
    rw [hboth]
    by_cases hfault : ∃ pcb sn pn, e = .request (.kernel (.requestPageFault pcb sn pn))
    · obtain ⟨pcb, sn, pn, rfl⟩ := hfault
      exact fault_coherent valid hg hp.1 he.1 h
    · push Not at hfault
      refine iff_of_true (step_coherent valid hg hcpu hp.1 e he hfault h) ?_
      unfold NoCachedVictim
      split
      · exact absurd rfl (hfault _ _ _)
      · trivial
  · unfold NoCachedVictim
    split
    · obtain ⟨_, _, _, _, _, _, _, hstep, _⟩ := fault_step valid hg he.1
      rw [hstep] at h
      simp at h
    · trivial

def smallMachine : Machine := bootMachine smallCpu smallConfig zeros zeros midnight

def firstPage : LogicalAddressParameters where
  maxSegmentSize := 16
  segmentNumber := 0
  segmentOffset := 0
  pageNum := 0
  pageOffset := 0

/-- Load the first page, translate an address in it, and evict it by a fault on
the second page. -/
def staleEvents : List Event :=
  [.request (.kernel (.initProcessStructuresMemory (smallPcb (-1)))),
    .request (.kernel (.requestPageFault (smallPcb 0) 0 0)),
    .translate (smallPcb 0) firstPage ⟨midnight, midnight⟩,
    .request (.kernel (.requestPageFault (smallPcb 0) 0 1))]

theorem tlb_coherent_iff_small :
    Always (machineStep smallCpu smallConfig)
        (fun s => Coherent s ∧ TranslatesAsMemory smallCpu smallConfig s) smallMachine
        staleEvents ↔
      Guarded (machineStep smallCpu smallConfig) (NoCachedVictim smallConfig) smallMachine
        staleEvents :=
  tlb_coherent_iff smallCpu smallConfig small_config_valid small_cpu_replaces zeros zeros midnight
    staleEvents (by decide +kernel)

/-- After the eviction the row of the first page still gives its old frame,
where memory answers a page fault. -/
theorem stale_row_translates :
    Guarded (machineStep smallCpu smallConfig) (AllowedEvent smallConfig) smallMachine
        staleEvents ∧
      ¬Always (machineStep smallCpu smallConfig)
        (fun s => Coherent s ∧ TranslatesAsMemory smallCpu smallConfig s) smallMachine
        staleEvents := by
  refine ⟨by decide +kernel, fun h => ?_⟩
  have hlast := always_last _ _ _ _ _ h (run_reached _ _ _ (by decide +kernel))
  have heq := hlast.2 (smallPcb 0) firstPage ⟨midnight, midnight⟩ (by decide +kernel)
  exact absurd heq (by decide +kernel)

end Geck.TlbCoherence
