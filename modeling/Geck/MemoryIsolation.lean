import Geck.MemorySystem

/-!
# Exact accounting and local replacement

The invariant of the accounts, read back as statements about the bitmaps, and
the effect of one page fault on every page that is neither the requested one
nor the victim.
-/

set_option autoImplicit false

namespace Geck.MemoryIsolation
open Geck.LabelledRuns Geck.BlockStore Geck.SharedPcb Geck.MemoryState Geck.MemoryPaging
open Geck.MemoryHandlers Geck.MemoryReplacement Geck.MemoryAccounting Geck.MemoryAllocation
open Geck.MemoryFaults Geck.MemorySystem

/-- Some live process has the page `r` in the frame `f`. -/
def InFrame (s : Site) (f : ℤ) (r : PageRef) : Prop :=
  ∃ pid x, LiveRow s.memory s.live pid r x ∧ x.presence = true ∧ x.frameNumber = f

def InSlot (s : Site) (slot : ℤ) (r : PageRef) : Prop :=
  ∃ pid x, LiveRow s.memory s.live pid r x ∧ x.swapPosition = slot

structure ExactAccounts (s : Site) : Prop where
  frames : ∀ f, Marked s.memory.bitmapMemory f ↔ ∃! r, InFrame s f r
  slots : ∀ slot, Marked s.memory.bitmapSwap slot ↔ ∃! r, InSlot s slot r
  unsharedFrame : ∀ f r r', InFrame s f r → InFrame s f r' → r = r'
  unsharedSlot : ∀ slot r r', InSlot s slot r → InSlot s slot r' → r = r'

/-- `END_STRUCTURES` returns the frames and slots of that process and no others. -/
def ReturnsExactly (cfg : MemoryConfig) (s : Site) (pcb : Pcb) : Prop :=
  ∃ m', attendKernel cfg s.memory (.endStructures pcb) = some (m', none) ∧
    (∀ f, Marked m'.bitmapMemory f ↔ Marked s.memory.bitmapMemory f ∧
      ¬∃ r x, LiveRow s.memory s.live pcb.processId r x ∧ x.presence = true ∧ x.frameNumber = f) ∧
    ∀ slot, Marked m'.bitmapSwap slot ↔ Marked s.memory.bitmapSwap slot ∧
      ¬∃ r x, LiveRow s.memory s.live pcb.processId r x ∧ x.swapPosition = slot

theorem accounts_exact {cfg : MemoryConfig} {s : Site} (h : Holdings cfg s.memory s.live) :
    ExactAccounts s := by
  have hframe (f : ℤ) (r r' : PageRef) : InFrame s f r → InFrame s f r' → r = r' := by
    rintro ⟨p, x, hx, hp, hf⟩ ⟨q, y, hy, hq, hf'⟩
    exact h.frameUnique p q r r' x y hx hy hp hq (hf.trans hf'.symm)
  have hslot (slot : ℤ) (r r' : PageRef) : InSlot s slot r → InSlot s slot r' → r = r' := by
    rintro ⟨p, x, hx, hs⟩ ⟨q, y, hy, hs'⟩
    exact h.slotUnique p q r r' x y hx hy (hs.trans hs'.symm)
  refine ⟨fun f => ⟨fun hf => ?_, ?_⟩, fun slot => ⟨fun hs => ?_, ?_⟩, hframe, hslot⟩
  · obtain ⟨p, r, x, hx, hp, hxf⟩ := h.frameHeld f hf
    exact ⟨r, ⟨p, x, hx, hp, hxf⟩, fun r' hr' => hframe f r' r hr' ⟨p, x, hx, hp, hxf⟩⟩
  · rintro ⟨r, ⟨p, x, hx, hp, rfl⟩, _⟩
    exact h.frameMarked p r x hx hp
  · obtain ⟨p, r, x, hx, hxs⟩ := h.slotHeld slot hs
    exact ⟨r, ⟨p, x, hx, hxs⟩, fun r' hr' => hslot slot r' r hr' ⟨p, x, hx, hxs⟩⟩
  · rintro ⟨r, ⟨p, x, hx, rfl⟩, _⟩
    exact h.slotMarked p r x hx

theorem returns_exactly {cfg : MemoryConfig} {s : Site} (h : Holdings cfg s.memory s.live)
    (pcb : Pcb) (hl : s.live pcb.processId = some pcb.segmentTable) : ReturnsExactly cfg s pcb := by
  obtain ⟨memory, swap, hd, hr⟩ := delete_process_releases h pcb hl
  refine ⟨{ s.memory with bitmapMemory := memory, bitmapSwap := swap },
    by simp [attendKernel, hd], ?_, ?_⟩
  · intro f
    rw [hr.memory]
    refine and_congr_right fun _ => not_congr ?_
    constructor
    · rintro ⟨x, ⟨r, hx⟩, h⟩
      exact ⟨r, x, hx, h⟩
    · rintro ⟨r, x, hx, h⟩
      exact ⟨x, ⟨r, hx⟩, h⟩
  · intro slot
    rw [hr.swap]
    refine and_congr_right fun _ => not_congr ?_
    constructor
    · rintro ⟨x, ⟨r, hx⟩, h⟩
      exact ⟨r, x, hx, h⟩
    · rintro ⟨r, x, hx, h⟩
      exact ⟨x, ⟨r, hx⟩, h⟩

/-- The storage of a page whose row is `x`: its frame while it is present, its
slot, and the two bits. -/
structure StorageKept (cfg : MemoryConfig) (m m' : Memory) (x : PageTableRow) : Prop where
  frame : x.presence = true → ∀ k < cfg.tamPagina,
    block cfg.tamPagina m'.principalMemory x.frameNumber.toNat k =
      block cfg.tamPagina m.principalMemory x.frameNumber.toNat k
  frameBit : x.presence = true →
    (Marked m'.bitmapMemory x.frameNumber ↔ Marked m.bitmapMemory x.frameNumber)
  slot : ∀ k < cfg.tamPagina,
    block cfg.tamPagina m'.swapFile x.swapPosition.toNat k =
      block cfg.tamPagina m.swapFile x.swapPosition.toNat k
  slotBit : Marked m'.bitmapSwap x.swapPosition ↔ Marked m.bitmapSwap x.swapPosition

/-- What making room leaves of the live pages: one of them may have been
evicted, the others keep their row up to the use bit and their slot. -/
structure RoomLeaves (cfg : MemoryConfig) (m m₂ : Memory) (live : Live) (pid : ℤ)
    (victim : Option PageRef) : Prop where
  ram : m₂.principalMemory = m.principalMemory
  swapBits : m₂.bitmapSwap = m.bitmapSwap
  evicted : ∀ w, victim = some w → ∃ y y', LiveRow m live pid w y ∧ y.presence = true ∧
    row m₂ w = some y' ∧ y'.presence = false
  rows : ∀ q r x, LiveRow m live q r x → victim ≠ some r →
    row m₂ r = some x ∨ (q = pid ∧ row m₂ r = some (withoutUse x))
  slots : ∀ q r x, LiveRow m live q r x → victim ≠ some r → ∀ k < cfg.tamPagina,
    block cfg.tamPagina m₂.swapFile x.swapPosition.toNat k =
      block cfg.tamPagina m.swapFile x.swapPosition.toNat k

theorem room_leaves {cfg : MemoryConfig} {m m₂ : Memory} {live : Live} {pid : ℤ}
    {c c₂ : ClockStruct} {f : ℤ} (hold : Holdings cfg m live)
    (hm : Mirror cfg m live pid c none) (h : Room cfg m live pid c m₂ c₂ f) :
    ∃ victim, RoomLeaves cfg m m₂ live pid victim := by
  cases h with
  | free => exact ⟨none, rfl, rfl, by simp, fun q r x hx _ => Or.inl hx.2, fun _ _ _ _ _ _ _ => rfl⟩
  | replaced m₁ m' k x p touched chosen victim resident frame evicted =>
    refine ⟨some k.page, evicted.ram.trans touched.ram, evicted.swapBits.trans touched.swapBits,
      ?_, ?_, ?_⟩
    · rintro w hw
      obtain rfl := Option.some.inj hw
      obtain ⟨y, hy, hp, _⟩ := hm.rows k chosen (by simp)
      exact ⟨y, _, hy, hp, evicted.gone, rfl⟩
    · intro q r y hy hne
      have hr : r ≠ k.page := fun h => hne (h ▸ rfl)
      change row m' r = _ ∨ _ ∧ row m' r = _
      rw [evicted.others r hr]
      obtain h | ⟨⟨k', hk', rfl⟩, h⟩ := touched.pages r
      · exact Or.inl (h.trans hy.2)
      · obtain ⟨z, hz, _⟩ := hm.rows k' hk' (by simp)
        exact Or.inr ⟨(live_row_owner hold hy hz).1, by rw [h, hy.2]; rfl⟩
    · intro q r y hy hne b hb
      change block _ m'.swapFile _ _ = _
      rw [evicted.swap, touched.swap]
      split
      · refine block_put_other _ _ _ _ _ b hb fun hs => hne ?_
        obtain ⟨z, hz, hez⟩ := same_holdings_row (touched_same_holdings touched) victim
        simp only [holding, Prod.mk.injEq] at hez
        have h0 := (marked_range (hold.slotMarked _ _ z hz)).1
        have h0' := (marked_range (hold.slotMarked _ _ y hy)).1
        rw [hold.slotUnique pid q k.page r z y hz hy (by omega)]
      · rfl

/-- Every live page but the requested one and the victim keeps its storage. -/
theorem served_keeps {cfg : MemoryConfig} {m m' m₂ : Memory} {live : Live} {pid : ℤ} {v : PageRef}
    {x : PageTableRow} {f : ℤ} {c c₂ : ClockStruct} {victim : Option PageRef}
    (ha : Accounts cfg m live) (h : Served cfg m m' live pid v x f m₂ c c₂)
    (hl : RoomLeaves cfg m m₂ live pid victim) {q : ℤ} {r : PageRef} {y : PageTableRow}
    (hy : LiveRow m live q r y) (hv : r ≠ v) (hvictim : victim ≠ some r) :
    (row m' r = some y ∨ (q = pid ∧ row m' r = some (withoutUse y))) ∧ StorageKept cfg m m' y := by
  have hrow := hl.rows q r y hy hvictim
  rw [← h.loaded.others r hv] at hrow
  obtain ⟨z, hz, hez⟩ : ∃ z, row m' r = some z ∧ holding z = holding y := by
    obtain hr | ⟨_, hr⟩ := hrow
    · exact ⟨y, hr, rfl⟩
    · exact ⟨_, hr, rfl⟩
  simp only [holding, Prod.mk.injEq] at hez
  have hold' := (served_accounts ha h).holdings
  have hz' : LiveRow m' live q r z := ⟨hy.1, hz⟩
  refine ⟨hrow, fun hp => ?_, fun hp => ?_, ?_, ?_⟩
  · have hne : f.toNat ≠ y.frameNumber.toNat := by
      intro hf
      have h0 := (room_frame ha.holdings h.room).1.1
      have h0' := (marked_range (ha.holdings.frameMarked q r y hy hp)).1
      exact hv (hold'.frameUnique q pid r v z _ hz' ⟨h.target.1, h.loaded.after⟩
        (hez.2.2.trans hp) rfl (by simp only [loadedRow]; omega))
    intro k hk
    rw [h.loaded.ram, block_put_other _ _ _ _ _ k hk hne, hl.ram]
  · have := hold'.frameMarked q r z hz' (hez.2.2.trans hp)
    exact iff_of_true (hez.1 ▸ this) (ha.holdings.frameMarked q r y hy hp)
  · intro k hk
    rw [h.loaded.swap]
    exact hl.slots q r y hy hvictim k hk
  · rw [h.loaded.swapBits, hl.swapBits]

/-- Bit `f` of `bitmap_memory` is set exactly when one page of the live
processes is in frame `f`, and likewise for swap, in every state the module
reaches; and deletion returns exactly what its process held. -/
theorem storage_accounting_exact (cfg : MemoryConfig) (valid : ValidConfig cfg)
    (ram swap : ℕ → UInt8) (requests : List Request) (s : Site)
    (hg : Guarded (siteStep cfg) (Allowed cfg) (boot cfg ram swap) requests)
    (h : run (siteStep cfg) (boot cfg ram swap) requests = some s) :
    ExactAccounts s ∧
      ∀ pcb, s.live pcb.processId = some pcb.segmentTable → ReturnsExactly cfg s pcb := by
  have hold := (accounts_run valid ram swap requests s hg h).holdings
  exact ⟨accounts_exact hold, returns_exactly hold⟩

/-- Initialise it, load its first page and write to it. -/
def smallRequests : List Request :=
  [.kernel (.initProcessStructuresMemory (smallPcb (-1))),
    .kernel (.requestPageFault (smallPcb 0) 0 0), .cpu (.movOut 0 7 0 1)]

def smallSite : Site :=
  reached (siteStep smallConfig) (boot smallConfig zeros zeros) smallRequests

theorem small_site_reached :
    run (siteStep smallConfig) (boot smallConfig zeros zeros) smallRequests = some smallSite :=
  run_reached _ _ _ (by decide +kernel)

theorem storage_accounting_small :
    ExactAccounts smallSite ∧ ReturnsExactly smallConfig smallSite (smallPcb 0) := by
  have h := storage_accounting_exact smallConfig small_config_valid zeros zeros smallRequests
    smallSite (by decide +kernel) small_site_reached
  exact ⟨h.1, h.2 (smallPcb 0) (by decide +kernel)⟩

/-- A page fault of `P` leaves every page of every other live process, its
storage and its clock as they were; of the pages of `P` it changes at most the
requested one, one victim and use bits. -/
theorem page_fault_local (cfg : MemoryConfig) (valid : ValidConfig cfg) (ram swap : ℕ → UInt8)
    (requests : List Request) (s : Site)
    (hg : Guarded (siteStep cfg) (Allowed cfg) (boot cfg ram swap) requests)
    (h : run (siteStep cfg) (boot cfg ram swap) requests = some s) (pcb : Pcb) (sn pn : ℤ)
    (hq : AllowedKernel cfg s (.requestPageFault pcb sn pn)) :
    ∃ m' v victim, attendKernel cfg s.memory (.requestPageFault pcb sn pn) =
        some (m', some (.responsePageFault pcb)) ∧
      requestedPage pcb.segmentTable sn pn = some v ∧
      (∀ w, victim = some w → ∃ x, LiveRow s.memory s.live pcb.processId w x ∧
        x.presence = true) ∧
      (∀ q, q ≠ pcb.processId → m'.clockStructures q = s.memory.clockStructures q ∧
        ∀ r x, LiveRow s.memory s.live q r x → row m' r = some x ∧
          StorageKept cfg s.memory m' x) ∧
      ∀ r x, LiveRow s.memory s.live pcb.processId r x → r ≠ v → victim ≠ some r →
        (row m' r = some x ∨ row m' r = some (withoutUse x)) ∧ StorageKept cfg s.memory m' x := by
  have ha := accounts_run valid ram swap requests s hg h
  obtain ⟨⟨v, x, hv⟩, hfree⟩ := hq
  obtain ⟨m', f, m₂, c, c₂, hr, _, hserved⟩ := page_fault_served valid ha hv hfree
  obtain ⟨c', hc', hm⟩ := ha.clocks _ _ hv.alive
  obtain rfl := Option.some.inj (hserved.clock.symm.trans hc')
  obtain ⟨victim, hl⟩ := room_leaves ha.holdings hm hserved.room
  have victim_own (w : PageRef) (hw : victim = some w) :
      ∃ x, LiveRow s.memory s.live pcb.processId w x ∧ x.presence = true := by
    obtain ⟨y, _, hy, hp, _⟩ := hl.evicted w hw
    exact ⟨y, hy, hp⟩
  refine ⟨m', v, victim, hr, hv.page, victim_own, fun q hq => ⟨?_, fun r y hy => ?_⟩,
    fun r y hy hne hvictim => ?_⟩
  · rw [hserved.loaded.clocks, Function.update_of_ne hq, room_clocks hserved.clock hserved.room,
      Function.update_of_ne hq]
  · have hne : r ≠ v := by
      rintro rfl
      exact hq (live_row_owner ha.holdings hy hserved.target).1
    have hvictim : victim ≠ some r := by
      intro hw
      obtain ⟨z, hz, _⟩ := victim_own r hw
      exact hq (live_row_owner ha.holdings hy hz).1
    obtain ⟨hrow, hkept⟩ := served_keeps ha hserved hl hy hne hvictim
    exact ⟨hrow.resolve_right fun h => hq h.1, hkept⟩
  · obtain ⟨hrow, hkept⟩ := served_keeps ha hserved hl hy hne hvictim
    exact ⟨hrow.imp_right And.right, hkept⟩

/-- Another process like `smallPcb`. -/
def otherPcb (indexPage : ℤ) : Pcb := { smallPcb indexPage with processId := 2 }

/-- Two processes, each with its first page loaded. -/
def neighbours : List Request :=
  [.kernel (.initProcessStructuresMemory (smallPcb (-1))),
    .kernel (.initProcessStructuresMemory (otherPcb (-1))),
    .kernel (.requestPageFault (smallPcb 0) 0 0), .kernel (.requestPageFault (otherPcb 1) 0 0)]

def neighbourSite : Site :=
  reached (siteStep smallConfig) (boot smallConfig zeros zeros) neighbours

theorem neighbour_site_reached :
    run (siteStep smallConfig) (boot smallConfig zeros zeros) neighbours = some neighbourSite :=
  run_reached _ _ _ (by decide +kernel)

/-- Process 1 loads its other page in place of its first; process 2 has one in memory. -/
theorem page_fault_local_small :
    ∃ m' v victim, attendKernel smallConfig neighbourSite.memory
        (.requestPageFault (smallPcb 0) 0 1) = some (m', some (.responsePageFault (smallPcb 0))) ∧
      requestedPage (smallPcb 0).segmentTable 0 1 = some v ∧
      (∀ w, victim = some w → ∃ x, LiveRow neighbourSite.memory neighbourSite.live 1 w x ∧
        x.presence = true) ∧
      m'.clockStructures 2 = neighbourSite.memory.clockStructures 2 ∧
      (∃ x, row neighbourSite.memory ⟨1, 0⟩ = some x ∧ x.presence = true ∧
        row m' ⟨1, 0⟩ = some x ∧ StorageKept smallConfig neighbourSite.memory m' x) ∧
      ∀ r x, LiveRow neighbourSite.memory neighbourSite.live 1 r x → r ≠ v → victim ≠ some r →
        (row m' r = some x ∨ row m' r = some (withoutUse x)) ∧
          StorageKept smallConfig neighbourSite.memory m' x := by
  obtain ⟨m', v, victim, hm', hv, hvictim, hothers, hown⟩ := page_fault_local smallConfig
    small_config_valid zeros zeros neighbours neighbourSite (by decide +kernel)
    neighbour_site_reached (smallPcb 0) 0 1 (by decide +kernel)
  obtain ⟨hclock, hrows⟩ := hothers 2 (by decide)
  have howner : Owns neighbourSite.live 2 1 :=
    ⟨(otherPcb 1).segmentTable, by decide +kernel, by decide⟩
  have hpresent : (row neighbourSite.memory ⟨1, 0⟩).any PageTableRow.presence = true := by
    decide +kernel
  obtain ⟨x, hx, hpresence⟩ := (Option.any_eq_true _ _).mp hpresent
  exact ⟨m', v, victim, hm', hv, hvictim, hclock,
    ⟨x, hx, hpresence, hrows ⟨1, 0⟩ x ⟨howner, hx⟩⟩, hown⟩

end Geck.MemoryIsolation
