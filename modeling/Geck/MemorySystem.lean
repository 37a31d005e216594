import Geck.MemoryFaults

/-!
# The memory module as a system

A site is the module's state with the segment tables it answered to the
processes still alive. Requests of the kernel and of the CPU arrive in any
order. The guard states what the kernel promises and the resources an
allocation needs; no promise is made about what the CPU asks.
-/

set_option autoImplicit false

namespace Geck.MemorySystem
open Geck.LabelledRuns Geck.BlockStore Geck.SharedPcb Geck.MemoryState Geck.MemoryPaging
open Geck.MemoryHandlers Geck.MemoryReplacement Geck.MemoryAccounting Geck.MemoryAllocation
open Geck.MemoryFaults

structure Site where
  memory : Memory
  live : Live

inductive Request where
  | kernel (request : KernelRequest)
  | cpu (request : CpuRequest)
  deriving DecidableEq, Repr

def kernelLive (live : Live) : KernelRequest → Option KernelResponse → Live
  | .initProcessStructuresMemory pcb, some (.initProcessStructuresMemoryResponse answer) =>
    Function.update live pcb.processId (some answer.segmentTable)
  | .endStructures pcb, _ => Function.update live pcb.processId none
  | _, _ => live

def siteStep (cfg : MemoryConfig) (s : Site) : Request → Option Site
  | .kernel q => do
    let (m, answer) ← attendKernel cfg s.memory q
    some ⟨m, kernelLive s.live q answer⟩
  | .cpu q => do
    let (m, _) ← attendCpu cfg s.memory q
    some ⟨m, s.live⟩

/-- All that a request that is served can do to the site. -/
theorem site_step_cases {cfg : MemoryConfig} {s s' : Site} {q : Request}
    (h : siteStep cfg s q = some s') :
    (∃ request m' answer, q = .cpu request ∧
      attendCpu cfg s.memory request = some (m', answer) ∧ s' = ⟨m', s.live⟩) ∨
    (∃ pcb built m', q = .kernel (.initProcessStructuresMemory pcb) ∧
      initProcessStructures cfg s.memory pcb = some (built, m') ∧
      s' = ⟨m', Function.update s.live pcb.processId (some built.segmentTable)⟩) ∨
    (∃ pcb sn pn m' answer, q = .kernel (.requestPageFault pcb sn pn) ∧
      requestPageFault cfg s.memory pcb sn pn = some (m', answer) ∧ s' = ⟨m', s.live⟩) ∨
    (∃ pcb m', q = .kernel (.endStructures pcb) ∧ deleteProcess s.memory pcb = some m' ∧
      s' = ⟨m', Function.update s.live pcb.processId none⟩) := by
  cases q with
  | cpu request =>
    left
    simp only [siteStep, Option.bind_eq_bind, Option.bind_eq_some_iff] at h
    obtain ⟨⟨m', answer⟩, hm', h⟩ := h
    exact ⟨request, m', answer, rfl, hm', (Option.some.inj h).symm⟩
  | kernel request =>
    right
    simp only [siteStep, Option.bind_eq_bind, Option.bind_eq_some_iff] at h
    obtain ⟨⟨m', answer⟩, hm', h⟩ := h
    obtain rfl := Option.some.inj h
    cases request with
    | initProcessStructuresMemory pcb =>
      obtain ⟨built, hinit, rfl⟩ := attend_init_some hm'
      exact Or.inl ⟨pcb, built, m', rfl, hinit, rfl⟩
    | requestPageFault pcb sn pn =>
      exact Or.inr (Or.inl ⟨pcb, sn, pn, m', answer, rfl, hm', rfl⟩)
    | endStructures pcb =>
      obtain ⟨hdelete, rfl⟩ := attend_end_some hm'
      exact Or.inr (Or.inr ⟨pcb, m', rfl, hdelete, rfl⟩)

def boot (cfg : MemoryConfig) (ram swap : ℕ → UInt8) : Site :=
  ⟨initMemory cfg ram swap, fun _ => none⟩

/-- A frame of main memory is free, or the process already has all its frames. -/
def FrameAvailable (cfg : MemoryConfig) (m : Memory) (pid : ℤ) : Prop :=
  ∀ n, framesInMemoryOfProcess m pid = some n → n < cfg.marcosPorProceso →
    ∃ f, InFrames cfg f ∧ ¬Marked m.bitmapMemory f

instance (cfg : MemoryConfig) (m : Memory) (pid : ℤ) : Decidable (FrameAvailable cfg m pid) :=
  decidable_of_iff ((framesInMemoryOfProcess m pid).all (fun n => decide (n < cfg.marcosPorProceso →
    ∃ f ∈ List.range (ramPages cfg), ¬Marked m.bitmapMemory f))) (by
      simp only [FrameAvailable, Option.all_eq_true, decide_eq_true_eq, List.mem_range, InFrames]
      refine forall₂_congr fun n _ => imp_congr_right fun _ => ⟨?_, ?_⟩
      · rintro ⟨f, hf, hm⟩
        exact ⟨f, ⟨by omega, by omega⟩, hm⟩
      · rintro ⟨f, ⟨h0, hf⟩, hm⟩
        exact ⟨f.toNat, by omega, by rwa [Int.toNat_of_nonneg h0]⟩)

def AllowedKernel (cfg : MemoryConfig) (s : Site) : KernelRequest → Prop
  | .initProcessStructuresMemory pcb => s.live pcb.processId = none ∧
      pagesNeeded cfg pcb.segmentTable ≤ s.memory.bitmapSwap.count false
  | .requestPageFault pcb sn pn => (∃ v x, Requestable s.memory s.live pcb sn pn v x) ∧
      FrameAvailable cfg s.memory pcb.processId
  | .endStructures pcb => s.live pcb.processId = some pcb.segmentTable

def Allowed (cfg : MemoryConfig) (s : Site) : Request → Prop
  | .kernel q => AllowedKernel cfg s q
  | .cpu _ => True

instance (cfg : MemoryConfig) (s : Site) : ∀ q, Decidable (AllowedKernel cfg s q)
  | .initProcessStructuresMemory _ => inferInstanceAs (Decidable (_ ∧ _))
  | .requestPageFault .. => inferInstanceAs (Decidable (_ ∧ _))
  | .endStructures _ => inferInstanceAs (Decidable (_ = _))

instance (cfg : MemoryConfig) (s : Site) : ∀ q, Decidable (Allowed cfg s q)
  | .kernel q => inferInstanceAs (Decidable (AllowedKernel cfg s q))
  | .cpu _ => inferInstanceAs (Decidable True)

/-- With nothing allocated, the lengths of the bitmaps are all there is to account for. -/
theorem fresh_accounts {cfg : MemoryConfig} {s : Site} (hlive : s.live = fun _ => none)
    (htables : s.memory.allPageTables = []) (hcounter : s.memory.pageTablesCounter = 0)
    (hram : s.memory.bitmapMemory = List.replicate (ramPages cfg) false)
    (hswap : s.memory.bitmapSwap = List.replicate (swapPages cfg) false) :
    Accounts cfg s.memory s.live := by
  have hnone (p : ℤ) (r : PageRef) (x : PageTableRow) : ¬LiveRow s.memory s.live p r x := by
    rintro ⟨⟨segments, hl, _⟩, _⟩
    simp [hlive] at hl
  refine ⟨⟨by simp [htables], by simp [htables, hcounter], by simp [hlive], ?_, by simp [hlive],
    by simp [hram], by simp [hswap], ?_, ?_, ?_, ?_, ?_, ?_⟩, by simp [hlive]⟩
  · rintro p q t ⟨segments, hl, _⟩
    simp [hlive] at hl
  · exact fun p r x hx => absurd hx (hnone p r x)
  · exact fun f hf => absurd (hram ▸ hf) (fresh_marked _ f)
  · exact fun p q r r' x y hx => absurd hx (hnone p r x)
  · exact fun p r x hx => absurd hx (hnone p r x)
  · exact fun s hs => absurd (hswap ▸ hs) (fresh_marked _ s)
  · exact fun p q r r' x y hx => absurd hx (hnone p r x)

theorem boot_accounts {cfg : MemoryConfig} (valid : ValidConfig cfg) (ram swap : ℕ → UInt8) :
    Accounts cfg (boot cfg ram swap).memory (boot cfg ram swap).live := by
  refine fresh_accounts rfl rfl rfl ?_ ?_
  · show createBitmap (ramPages cfg/8) = _
    rw [createBitmap, Nat.div_mul_cancel valid.ramBytes]
  · show createBitmap (swapPages cfg/8) = _
    rw [createBitmap, Nat.div_mul_cancel valid.swapBytes]

theorem update_live_none (live : Live) (pid : ℤ) (h : live pid = none) (p : ℤ) (t : ℕ) :
    Owns (Function.update live pid (some [])) p t ↔ Owns live p t := by
  unfold Owns
  by_cases hp : p = pid
  · subst hp
    simp [h]
  · simp [hp]

theorem init_begins {cfg : MemoryConfig} {m : Memory} {live : Live} {pid : ℤ}
    (hold : Holdings cfg m live) (h : live pid = none) :
    Holdings cfg (createClockStructure m pid) (Function.update live pid (some [])) := by
  have hrow {p r x} : LiveRow m (Function.update live pid (some [])) p r x ↔ LiveRow m live p r x :=
    and_congr_left fun _ => update_live_none live pid h p r.table
  have hlive {p : ℤ} {segments} (hl : Function.update live pid (some []) p = some segments) :
      segments = [] ∨ live p = some segments := by
    by_cases hp : p = pid
    · left
      simpa [hp, eq_comm] using hl
    · right
      simpa [hp] using hl
  refine holdings_clock pid _ ⟨hold.ids, hold.counter, fun p segments hl => ?_, ?_,
    fun p segments hl => ?_, hold.memoryLength, hold.swapLength, ?_, ?_, ?_, ?_, ?_, ?_⟩
  · obtain rfl | hl := hlive hl
    · simp
    · exact hold.inRange p segments hl
  · simpa only [update_live_none live pid h] using hold.disjoint
  · obtain rfl | hl := hlive hl
    · simp
    · exact hold.injective p segments hl
  · simpa only [hrow] using hold.frameMarked
  · simpa only [hrow] using hold.frameHeld
  · simpa only [hrow] using hold.frameUnique
  · simpa only [hrow] using hold.slotMarked
  · simpa only [hrow] using hold.slotHeld
  · simpa only [hrow] using hold.slotUnique

theorem init_accounts {cfg : MemoryConfig} (hframes : 1 ≤ cfg.marcosPorProceso) {m : Memory}
    {live : Live} (ha : Accounts cfg m live) (pcb : Pcb) (hnew : live pcb.processId = none)
    (hfree : pagesNeeded cfg pcb.segmentTable ≤ m.bitmapSwap.count false) :
    ∃ segments m', initProcessStructures cfg m pcb =
        some ({ pcb with segmentTable := segments }, m') ∧
      Extended (createClockStructure m pcb.processId) m' segments ∧
      Accounts cfg m' (Function.update live pcb.processId (some segments)) := by
  obtain ⟨segments, m', hm', hext, hold⟩ := init_segments_extends cfg pcb.processId live
    pcb.segmentTable 0 (createClockStructure m pcb.processId) [] (init_begins ha.holdings hnew) hfree
  refine ⟨segments, m', by simp [initProcessStructures, hm'], hext, hold, fun p table hl => ?_⟩
  by_cases hp : p = pcb.processId
  · subst hp
    obtain rfl : segments = table := by simpa using hl
    refine ⟨{ processId := (pcb.processId % 2^16).toNat, framesInMemory := [], pointer := 0 },
      ?_, by simp, ?_, by simp, by simp, hframes, fun _ => rfl⟩
    · rw [hext.clocks]
      simp [createClockStructure, setStructClock]
    intro r y hy hpres
    obtain ⟨table, hl, hmem⟩ := hy.1
    obtain rfl : segments = table := by simpa using hl
    have := hext.indexes _ hmem
    simp [(hext.added r y (by exact_mod_cast this) hy.2).1] at hpres
  · have hlp : live p = some table := by simpa [hp] using hl
    obtain ⟨c, hc, hmirror⟩ := ha.clocks p table hlp
    refine ⟨c, ?_, mirror_other (fun r y => ?_) hmirror⟩
    · rw [hext.clocks]
      simpa [createClockStructure, setStructClock, hp] using hc
    · have hown : Owns (Function.update live pcb.processId (some segments)) p r.table ↔
          Owns live p r.table := by simp [Owns, hp]
      unfold LiveRow
      rw [hown]
      refine and_congr_right fun ho => ?_
      rw [hext.old r (owns_lt ha.holdings ho)]
      rfl

theorem init_served {cfg : MemoryConfig} (valid : ValidConfig cfg) {m : Memory} {live : Live}
    (ha : Accounts cfg m live) (pcb : Pcb) (hnew : live pcb.processId = none)
    (hfree : pagesNeeded cfg pcb.segmentTable ≤ m.bitmapSwap.count false) :
    ∃ segments m', initProcessStructures cfg m pcb =
        some ({ pcb with segmentTable := segments }, m') ∧
      Extended (createClockStructure m pcb.processId) m' segments ∧
      Accounts cfg m' (Function.update live pcb.processId (some segments)) :=
  init_accounts valid.frames ha pcb hnew hfree

theorem end_served {cfg : MemoryConfig} {m : Memory} {live : Live} (ha : Accounts cfg m live)
    (pcb : Pcb) (hl : live pcb.processId = some pcb.segmentTable) :
    ∃ memory swap, deleteProcess m pcb =
        some { m with bitmapMemory := memory, bitmapSwap := swap } ∧
      Accounts cfg { m with bitmapMemory := memory, bitmapSwap := swap }
        (Function.update live pcb.processId none) := by
  obtain ⟨memory, swap, hd, hr⟩ := delete_process_releases ha.holdings pcb hl
  refine ⟨memory, swap, hd, holdings_delete ha.holdings memory swap hr, fun p table hp => ?_⟩
  have hne : p ≠ pcb.processId := by
    rintro rfl
    simp at hp
  obtain ⟨c, hc, hmirror⟩ := ha.clocks p table (by simpa [hne] using hp)
  refine ⟨c, hc, mirror_other (fun r y => ?_) hmirror⟩
  unfold LiveRow
  rw [owns_delete, and_assoc]
  exact and_iff_right hne

theorem modify_same_holdings (m : Memory) (r : PageRef) (g : PageTableRow → PageTableRow)
    (hg : ∀ x, holding (g x) = holding x) : SameHoldings m (modifyRow m r g) := by
  refine ⟨fun q => ?_, shape_modify m r g, rfl, rfl, rfl, rfl⟩
  rw [row_modify]
  split
  · cases row m q <;> simp [hg]
  · rfl

theorem mark_use_same_holdings (f : ℤ) (rows : List ClockRow) (m : Memory) :
    SameHoldings m (markUse f rows m) := by
  induction rows generalizing m with
  | nil => exact touched_same_holdings (touched_refl [] m)
  | cons k rows ih =>
    unfold markUse
    split
    · have hset := modify_same_holdings m k.page (fun r => { r with use := true }) fun _ => rfl
      exact same_holdings_trans hset (ih _)
    · exact ih m

/-- `list_replace` puts back the table that is already there. -/
theorem replace_same_table {m : Memory} (hid : ∀ (i : ℕ) t, m.allPageTables[i]? = some t → t.id = i)
    {index : ℤ} {t : ℕ} (ht : getPageTableByIndex m index = some t) :
    index = t ∧ t < m.allPageTables.length := by
  rw [getPageTableByIndex, List.findIdx?_eq_some_iff_getElem] at ht
  obtain ⟨hlt, hindex, _⟩ := ht
  have := hid t _ (List.getElem?_eq_getElem hlt)
  simp only [decide_eq_true_eq] at hindex
  exact ⟨by omega, hlt⟩

/-- The table and row `save_value_in_memory` finds, and what it leaves. -/
theorem save_value_found {cfg : MemoryConfig} {m m' : Memory} {a : ℤ} {value : UInt32} {index : ℤ}
    (hid : ∀ (i : ℕ) t, m.allPageTables[i]? = some t → t.id = i)
    (h : saveValueInMemory cfg m a value index = some m') :
    ∃ (t : ℕ) (table : PageTable) (i : ℕ), index = t ∧ m.allPageTables[t]? = some table ∧
      searchRow (a.tdiv cfg.tamPagina) table.pagesList 0 = some i ∧
      m' = { modifyRow m ⟨t, i⟩ (fun r => { r with modified := true }) with
        principalMemory := storeWord m.principalMemory a.toNat value } := by
  simp only [saveValueInMemory, Option.bind_eq_bind, Option.bind_eq_some_iff] at h
  obtain ⟨t, ht, table, htable, i, hi, h⟩ := h
  obtain ⟨hindex, hlt⟩ := replace_same_table hid ht
  refine ⟨t, table, i, hindex, htable, hi, ?_⟩
  split at h
  · obtain ⟨table', htable', h⟩ := Option.bind_eq_some_iff.mp h
    rw [← Option.some.inj h]
    have hsame : listReplace (modifyRow { m with
        principalMemory := storeWord m.principalMemory a.toNat value } ⟨t, i⟩
        fun r => { r with modified := true }).allPageTables index table' =
        (modifyRow m ⟨t, i⟩ fun r => { r with modified := true }).allPageTables := by
      obtain ⟨ht, rfl⟩ := List.getElem?_eq_some_iff.mp htable'
      simp only [listReplace, hindex, Int.natCast_nonneg, if_true, Int.toNat_natCast]
      exact List.set_getElem_self ht
    rw [hsame]
    rfl
  · simp at h

theorem cpu_same_holdings {cfg : MemoryConfig} {m m' : Memory} {q : CpuRequest} {answer : CpuResponse}
    (hid : ∀ (i : ℕ) t, m.allPageTables[i]? = some t → t.id = i)
    (h : attendCpu cfg m q = some (m', answer)) : SameHoldings m m' := by
  obtain rfl | ⟨address, value, index, hsaved⟩ | ⟨frame, rows, rfl⟩ := attend_cpu_cases h
  · exact touched_same_holdings (touched_refl [] m')
  · obtain ⟨t, table, i, _, _, _, rfl⟩ := save_value_found hid hsaved
    have := modify_same_holdings m ⟨t, i⟩ (fun r => { r with modified := true }) fun _ => rfl
    exact ⟨this.rows, this.shape, rfl, rfl, rfl, rfl⟩
  · exact mark_use_same_holdings frame rows m

theorem kernel_accounts {cfg : MemoryConfig} (valid : ValidConfig cfg) {s : Site} {q : KernelRequest}
    (ha : Accounts cfg s.memory s.live) (hq : AllowedKernel cfg s q) :
    ∃ m' answer, attendKernel cfg s.memory q = some (m', answer) ∧
      Accounts cfg m' (kernelLive s.live q answer) := by
  cases q with
  | initProcessStructuresMemory pcb =>
    obtain ⟨segments, m', hi, _, ha'⟩ := init_served valid ha pcb hq.1 hq.2
    exact ⟨m', some (.initProcessStructuresMemoryResponse { pcb with segmentTable := segments }),
      by simp [attendKernel, hi], ha'⟩
  | requestPageFault pcb sn pn =>
    obtain ⟨⟨v, x, hv⟩, hfree⟩ := hq
    obtain ⟨m', f, m₂, c, c₂, hr, _, hserved⟩ := page_fault_served valid ha hv hfree
    exact ⟨m', _, hr, served_accounts ha hserved⟩
  | endStructures pcb =>
    obtain ⟨memory, swap, hd, ha'⟩ := end_served ha pcb hq
    exact ⟨_, none, by simp [attendKernel, hd], ha'⟩

theorem site_step_accounts {cfg : MemoryConfig} (valid : ValidConfig cfg) (s : Site) (q : Request)
    (s' : Site) (ha : Accounts cfg s.memory s.live) (hq : Allowed cfg s q)
    (h : siteStep cfg s q = some s') : Accounts cfg s'.memory s'.live := by
  cases q with
  | kernel q =>
    obtain ⟨m', answer, hm', ha'⟩ := kernel_accounts valid ha hq
    obtain rfl : _ = s' := by simpa [siteStep, hm'] using h
    exact ha'
  | cpu q =>
    simp only [siteStep, Option.bind_eq_bind, Option.bind_eq_some_iff] at h
    obtain ⟨⟨m', answer⟩, hm', h⟩ := h
    obtain rfl := Option.some.inj h
    exact accounts_same (cpu_same_holdings ha.holdings.ids hm') ha

theorem accounts_run {cfg : MemoryConfig} (valid : ValidConfig cfg) (ram swap : ℕ → UInt8)
    (requests : List Request) (s : Site)
    (hg : Guarded (siteStep cfg) (Allowed cfg) (boot cfg ram swap) requests)
    (h : run (siteStep cfg) (boot cfg ram swap) requests = some s) :
    Accounts cfg s.memory s.live :=
  guarded_run (siteStep cfg) (fun s => Accounts cfg s.memory s.live) (Allowed cfg)
    (site_step_accounts valid) requests _ s (boot_accounts valid ram swap) hg h

end Geck.MemorySystem
