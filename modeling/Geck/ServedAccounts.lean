import Geck.SwapSlots
import Geck.ClockMirror

/-!
# Requests that were served

The bitmaps have whole bytes, so they can be shorter than main memory and swap.
A request that is served all the same took a frame and slots that the bitmaps
have: a module of just their sizes does the same. The accounts therefore hold
wherever served requests lead, for all sizes and with no promise that a frame or
a slot is left.
-/

set_option autoImplicit false

namespace Geck.ServedAccounts
open Geck.LabelledRuns Geck.BlockStore Geck.SharedPcb Geck.MemoryState Geck.MemoryPaging
open Geck.MemoryHandlers Geck.MemoryReplacement Geck.MemoryAccounting Geck.MemoryAllocation
open Geck.MemoryFaults Geck.MemorySystem Geck.ClockMirror Geck.SwapSlots

/-- The same module with fewer frames and slots. -/
structure Within (small cfg : MemoryConfig) : Prop where
  page : small.tamPagina = cfg.tamPagina
  limit : small.marcosPorProceso = cfg.marcosPorProceso
  algorithm : small.algoritmoReemplazo = cfg.algoritmoReemplazo
  ram : ramPages small ≤ ramPages cfg
  swap : swapPages small ≤ swapPages cfg

section Pages
variable {small cfg : MemoryConfig} (hw : Within small cfg) {m m' : Memory}
include hw

theorem read_frame_within {f : ℤ} {value : ℕ → UInt8} (h : readFrame small m f = some value) :
    readFrame cfg m f = some value := by
  simp only [readFrame, Option.ite_none_right_eq_some] at h ⊢
  have hram := hw.ram
  exact ⟨⟨h.1.1, by omega⟩, hw.page ▸ h.2⟩

theorem write_frame_within {f : ℤ} {value : ℕ → UInt8} (h : writeFrame small m f value = some m') :
    writeFrame cfg m f value = some m' := by
  simp only [writeFrame, Option.ite_none_right_eq_some] at h ⊢
  have hram := hw.ram
  exact ⟨⟨h.1.1, by omega⟩, hw.page ▸ h.2⟩

theorem read_page_swap_within {p : ℤ} {value : ℕ → UInt8}
    (h : readPageSwap small m p = some value) : readPageSwap cfg m p = some value := by
  simp only [readPageSwap, Option.ite_none_right_eq_some] at h ⊢
  have hswap := hw.swap
  exact ⟨⟨h.1.1, by omega⟩, hw.page ▸ h.2⟩

theorem write_page_swap_within {p : ℤ} {value : ℕ → UInt8}
    (h : writePageSwap small m p value = some m') : writePageSwap cfg m p value = some m' := by
  simp only [writePageSwap, Option.ite_none_right_eq_some] at h ⊢
  have hswap := hw.swap
  exact ⟨⟨h.1.1, by omega⟩, hw.page ▸ h.2⟩

theorem replace_by_clock_within {v : PageRef} (h : replaceByClock small m v = some m') :
    replaceByClock cfg m v = some m' := by
  simp only [replaceByClock, Option.bind_eq_bind, Option.bind_eq_some_iff] at h ⊢
  obtain ⟨x, hx, h⟩ := h
  refine ⟨x, hx, ?_⟩
  split at h
  · next hmod =>
    simp only [Option.bind_eq_some_iff] at h
    obtain ⟨value, hvalue, written, hwritten, h⟩ := h
    rw [if_pos hmod]
    simp only [Option.bind_eq_some_iff]
    exact ⟨value, read_frame_within hw hvalue, written, write_page_swap_within hw hwritten, h⟩
  · next hmod =>
    rw [if_neg hmod]
    exact h

theorem next_pointer_within (p : ℕ) : moveToNextPointer small p = moveToNextPointer cfg p := by
  simp only [moveToNextPointer, hw.limit]

theorem simple_clock_loop_within {rows : List ClockRow} (fuel : ℕ) {p : ℕ}
    {result : Memory × ℕ × ℤ} (h : simpleClockLoop small rows fuel m p = some result) :
    simpleClockLoop cfg rows fuel m p = some result := by
  induction fuel generalizing m p with
  | zero => simp [simpleClockLoop] at h
  | succ fuel ih =>
    simp only [simpleClockLoop, Option.bind_eq_bind, Option.bind_eq_some_iff,
      next_pointer_within hw] at h ⊢
    obtain ⟨k, hk, x, hx, h⟩ := h
    refine ⟨k, hk, x, hx, ?_⟩
    split at h
    · next huse =>
      rw [if_pos huse]
      obtain ⟨replaced, hreplaced, h⟩ := Option.bind_eq_some_iff.mp h
      exact Option.bind_eq_some_iff.mpr ⟨replaced, replace_by_clock_within hw hreplaced, h⟩
    · next huse =>
      rw [if_neg huse]
      exact ih h

theorem modified_clock_loop_within {rows : List ClockRow} {start : ℕ} (fuel : ℕ)
    {pass : ClockPass} {p : ℕ} {result : Memory × ℕ × ℤ}
    (h : modifiedClockLoop small rows start fuel pass m p = some result) :
    modifiedClockLoop cfg rows start fuel pass m p = some result := by
  induction fuel generalizing pass m p with
  | zero => simp [modifiedClockLoop] at h
  | succ fuel ih =>
    simp only [modifiedClockLoop, Option.bind_eq_bind, Option.bind_eq_some_iff,
      next_pointer_within hw] at h ⊢
    obtain ⟨k, hk, x, hx, h⟩ := h
    refine ⟨k, hk, x, hx, ?_⟩
    split at h
    · next hwanted =>
      rw [if_pos hwanted]
      obtain ⟨replaced, hreplaced, h⟩ := Option.bind_eq_some_iff.mp h
      exact Option.bind_eq_some_iff.mpr ⟨replaced, replace_by_clock_within hw hreplaced, h⟩
    · next hwanted =>
      rw [if_neg hwanted]
      cases pass with
      | first => exact ih h
      | second => exact ih h

theorem replacement_within {pid : ℤ} {result : Memory × ℤ}
    (h : useReplacementAlgorithm small m pid = some result) :
    useReplacementAlgorithm cfg m pid = some result := by
  unfold useReplacementAlgorithm at h ⊢
  rw [hw.algorithm] at h
  cases halg : cfg.algoritmoReemplazo with
  | clockM =>
    simp only [halg, modifiedClock, Option.bind_eq_bind, Option.bind_eq_some_iff] at h ⊢
    obtain ⟨c, hc, chosen, hchosen, h⟩ := h
    exact ⟨c, hc, chosen, modified_clock_loop_within hw _ hchosen, h⟩
  | clock =>
    simp only [halg, simpleClock, Option.bind_eq_bind, Option.bind_eq_some_iff] at h ⊢
    obtain ⟨c, hc, chosen, hchosen, h⟩ := h
    exact ⟨c, hc, chosen, simple_clock_loop_within hw _ hchosen, h⟩
  | other => simpa only [halg] using h

theorem load_page_within {pid f : ℤ} {v : PageRef} (h : loadPage small m pid v f = some m') :
    loadPage cfg m pid v f = some m' := by
  simp only [loadPage, Option.bind_eq_bind, Option.bind_eq_some_iff] at h ⊢
  obtain ⟨x, hx, value, hvalue, written, hwritten, h⟩ := h
  exact ⟨x, hx, value, read_page_swap_within hw hvalue, written, write_frame_within hw hwritten, h⟩

end Pages

section Tables
variable {small cfg : MemoryConfig} (hw : Within small cfg)
include hw

omit hw in
theorem find_page_free_more {b : List Bool} (n more i : ℕ) {p : ℤ} (hp : p ≠ -1)
    (h : findPageFreeFrom b n i = some p) : findPageFreeFrom b (n+more) i = some p := by
  induction n generalizing i with
  | zero => exact absurd (Option.some.inj h).symm hp
  | succ n ih =>
    rw [Nat.add_right_comm]
    simp only [findPageFreeFrom, Option.bind_eq_bind, Option.bind_eq_some_iff] at h ⊢
    obtain ⟨bit, hbit, h⟩ := h
    refine ⟨bit, hbit, ?_⟩
    split at h
    · next hset =>
      rw [if_pos hset]
      exact ih (i+1) h
    · next hclear =>
      rw [if_neg hclear]
      exact h

theorem find_page_free_within {b : List Bool} {p : ℤ} (hp : p ≠ -1)
    (h : findPageFree small b = some p) : findPageFree cfg b = some p := by
  obtain ⟨more, hmore⟩ := Nat.exists_eq_add_of_le hw.swap
  rw [findPageFree, hmore]
  exact find_page_free_more _ more 0 hp h

theorem builder_rows_within (n : ℕ) {b : List Bool} {result : List PageTableRow × List Bool}
    (h : builderRows small n b = some result) : builderRows cfg n b = some result := by
  induction n generalizing b result with
  | zero => exact h
  | succ n ih =>
    simp only [builderRows, Option.bind_eq_bind, Option.bind_eq_some_iff] at h ⊢
    obtain ⟨p, hp, marked, hmarked, rest, hrest, h⟩ := h
    have hfound : p ≠ -1 := by
      have := (write_bit_range hmarked).1
      omega
    exact ⟨p, find_page_free_within hw hfound hp, marked, hmarked, rest, ih hrest, h⟩

theorem frames_of_segment_within (size : ℤ) :
    calculateFramesOfSegment small size = calculateFramesOfSegment cfg size := by
  simp only [calculateFramesOfSegment, hw.page]

theorem pages_needed_within (segments : List Segment) :
    pagesNeeded small segments = pagesNeeded cfg segments := by
  simp only [pagesNeeded, frames_of_segment_within hw]

theorem init_segments_within (segments : List Segment) {i : ℤ} {m : Memory}
    {result : List Segment × Memory} (h : initSegments small segments i m = some result) :
    initSegments cfg segments i m = some result := by
  induction segments generalizing i m result with
  | nil => exact h
  | cons segment rest ih =>
    simp only [initSegments, builderPageTable, Option.bind_eq_bind, Option.bind_eq_some_iff,
      frames_of_segment_within hw] at h ⊢
    obtain ⟨built, ⟨rows, hrows, hbuilt⟩, later, hlater, h⟩ := h
    exact ⟨built, ⟨rows, builder_rows_within hw _ hrows, hbuilt⟩, later, ih hlater, h⟩

theorem init_process_within {m : Memory} {pcb : Pcb} {result : Pcb × Memory}
    (h : initProcessStructures small m pcb = some result) :
    initProcessStructures cfg m pcb = some result := by
  simp only [initProcessStructures, Option.bind_eq_bind, Option.bind_eq_some_iff] at h ⊢
  obtain ⟨built, hbuilt, h⟩ := h
  exact ⟨built, init_segments_within hw _ hbuilt, h⟩

end Tables

/-- The frames and slots that the bitmaps have. -/
def bitmapConfig (cfg : MemoryConfig) : MemoryConfig :=
  { cfg with
    tamMemoria := ramPages cfg/8*8*cfg.tamPagina
    tamanioSwap := swapPages cfg/8*8*cfg.tamPagina }

section Bitmaps
variable (cfg : MemoryConfig)

theorem bitmap_ram_pages : ramPages (bitmapConfig cfg) = ramPages cfg/8*8 := by
  rcases Nat.eq_zero_or_pos cfg.tamPagina with hpage | hpage
  · simp [ramPages, bitmapConfig, hpage]
  · exact Nat.mul_div_cancel _ hpage

theorem bitmap_swap_pages : swapPages (bitmapConfig cfg) = swapPages cfg/8*8 := by
  rcases Nat.eq_zero_or_pos cfg.tamPagina with hpage | hpage
  · simp [swapPages, bitmapConfig, hpage]
  · exact Nat.mul_div_cancel _ hpage

theorem bitmap_within : Within (bitmapConfig cfg) cfg where
  page := rfl
  limit := rfl
  algorithm := rfl
  ram := bitmap_ram_pages cfg ▸ Nat.div_mul_le_self _ 8
  swap := bitmap_swap_pages cfg ▸ Nat.div_mul_le_self _ 8

theorem boot_bitmaps (ram swap : ℕ → UInt8) :
    Accounts (bitmapConfig cfg) (boot cfg ram swap).memory (boot cfg ram swap).live := by
  refine fresh_accounts rfl rfl rfl ?_ ?_
  · rw [bitmap_ram_pages]
    rfl
  · rw [bitmap_swap_pages]
    rfl

end Bitmaps

section Requests
variable {cfg : MemoryConfig} {m m' m₂ : Memory} {live : Live}
  (ha : Accounts (bitmapConfig cfg) m live)
include ha

/-- A frame that was chosen, and is one, is a frame of the bitmap. -/
theorem chosen_room {pid f : ℤ} {c : ClockStruct} (hc : m.clockStructures pid = some c)
    (hm : Mirror (bitmapConfig cfg) m live pid c none) {v : PageRef} {x : PageTableRow}
    (hv : LiveRow m live pid v x) (hx : x.presence = false) (hf : f ≠ -1)
    (h : chooseFrame cfg m pid = some (m₂, f)) :
    ∃ c₂, Room (bitmapConfig cfg) m live pid c m₂ c₂ f := by
  by_cases hfull : c.framesInMemory.length = cfg.marcosPorProceso
  · rw [choose_frame_full hc hfull] at h
    have halg : (bitmapConfig cfg).algoritmoReemplazo ≠ .other := by
      intro hother
      have hother : cfg.algoritmoReemplazo = .other := hother
      simp only [useReplacementAlgorithm, hother, Option.some.injEq, Prod.mk.injEq] at h
      exact hf h.2.symm
    obtain ⟨m₃, c₃, f₃, hchosen, hroom⟩ := choose_frame_room halg ha.holdings hc hm hv hx
      fun hlt => absurd hfull (Nat.ne_of_lt hlt)
    have hfull' : c.framesInMemory.length = (bitmapConfig cfg).marcosPorProceso := hfull
    rw [choose_frame_full hc hfull'] at hchosen
    have hsame := (replacement_within (bitmap_within cfg) hchosen).symm.trans h
    simp only [Option.some.injEq, Prod.mk.injEq] at hsame
    obtain ⟨rfl, rfl⟩ := hsame
    exact ⟨c₃, hroom⟩
  · rw [choose_frame_below hc hfull] at h
    obtain ⟨free, hfree, h⟩ := Option.map_eq_some_iff.mp h
    simp only [Prod.mk.injEq] at h
    obtain ⟨rfl, rfl⟩ := h
    obtain ⟨hin, hunmarked⟩ := clear_iff.mp ((find_page_free_found _ _ hfree).resolve_left hf)
    rw [ha.holdings.memoryLength] at hin
    exact ⟨c, Room.free free (lt_of_le_of_ne hm.bound hfull) hin hunmarked⟩

theorem requested_fault {pcb : Pcb} {sn pn : ℤ} {v : PageRef} {x : PageTableRow}
    (hq : Requestable m live pcb sn pn v x) :
    requestPageFault cfg m pcb sn pn = (chooseFrame cfg m pcb.processId).bind fun chosen =>
      (loadPage cfg chosen.1 pcb.processId v chosen.2).map fun m' =>
        (m', some (.responsePageFault pcb)) := by
  have hold := ha.holdings
  obtain ⟨segment, hs, hi, hpn⟩ := requested_segment hq.page
  have htable := table_lookup hold.ids v.table (owns_lt hold (requested_owned hq.alive hq.page))
  simp only [requestPageFault, hs, hi, htable, hpn, Int.natCast_nonneg, if_true,
    Option.bind_eq_bind, Option.bind_some, Int.toNat_natCast, Option.map_eq_bind]
  rfl

/-- Into a frame that was chosen, and is one, the page is loaded. -/
theorem chosen_loads {pcb : Pcb} {sn pn f : ℤ} {v : PageRef} {x : PageTableRow}
    (hq : Requestable m live pcb sn pn v x) (hf : f ≠ -1)
    (h : chooseFrame cfg m pcb.processId = some (m₂, f)) :
    ∃ m' c c₂, loadPage cfg m₂ pcb.processId v f = some m' ∧
      Served (bitmapConfig cfg) m m' live pcb.processId v x f m₂ c c₂ := by
  have hold := ha.holdings
  have hv : LiveRow m live pcb.processId v x := ⟨requested_owned hq.alive hq.page, hq.found⟩
  obtain ⟨c, hc, hm⟩ := ha.clocks _ _ hq.alive
  obtain ⟨c₂, hroom⟩ := chosen_room ha hc hm hv hq.absent hf h
  have hold₂ := room_holdings hold hroom
  have hv₂ := (room_target hm hq.absent hq.found hroom).trans hq.found
  have hslot := marked_range (hold₂.slotMarked _ v x ⟨hv.1, hv₂⟩)
  obtain ⟨m', hm', hload⟩ := load_page_loads (bitmapConfig cfg) m₂ pcb.processId v x f c₂ hv₂
    ⟨hslot.1, hold₂.swapLength ▸ hslot.2⟩ (room_frame hold hroom).1 hold₂.memoryLength
    (by simp [room_clocks hc hroom])
  exact ⟨m', c, c₂, load_page_within (bitmap_within cfg) hm', hc, hv, hq.absent, hroom, hload⟩

theorem fault_served {pcb : Pcb} {sn pn : ℤ} {v : PageRef} {x : PageTableRow}
    {answer : Option KernelResponse} (hq : Requestable m live pcb sn pn v x)
    (h : requestPageFault cfg m pcb sn pn = some (m', answer)) :
    ∃ f m₂ c c₂, chooseFrame cfg m pcb.processId = some (m₂, f) ∧
      Served (bitmapConfig cfg) m m' live pcb.processId v x f m₂ c c₂ := by
  rw [requested_fault ha hq, Option.bind_eq_some_iff] at h
  obtain ⟨⟨m₂, f⟩, hchosen, h⟩ := h
  obtain ⟨loaded, hloaded, hsame⟩ := Option.map_eq_some_iff.mp h
  obtain ⟨rfl, -⟩ := Prod.mk.inj hsame
  have hf : f ≠ -1 := by
    rintro rfl
    simp [load_page_nowhere] at hloaded
  obtain ⟨last, c, c₂, hlast, hserved⟩ := chosen_loads ha hq hf hchosen
  obtain rfl := Option.some.inj (hlast.symm.trans hloaded)
  exact ⟨f, m₂, c, c₂, hchosen, hserved⟩

theorem fault_accounts {pcb : Pcb} {sn pn : ℤ} {v : PageRef} {x : PageTableRow}
    {answer : Option KernelResponse} (hq : Requestable m live pcb sn pn v x)
    (h : requestPageFault cfg m pcb sn pn = some (m', answer)) :
    Accounts (bitmapConfig cfg) m' live := by
  obtain ⟨f, m₂, c, c₂, -, hserved⟩ := fault_served ha hq h
  exact served_accounts ha hserved

theorem init_served_accounts (hframes : 1 ≤ cfg.marcosPorProceso) {pcb answer : Pcb}
    (hnew : live pcb.processId = none)
    (h : initProcessStructures cfg m pcb = some (answer, m')) :
    Accounts (bitmapConfig cfg) m'
      (Function.update live pcb.processId (some answer.segmentTable)) := by
  have hneeds := init_process_needs h
  rw [← pages_needed_within (bitmap_within cfg)] at hneeds
  have hlimit : 1 ≤ (bitmapConfig cfg).marcosPorProceso := hframes
  obtain ⟨segments, built, hbuilt, -, haccounts⟩ := init_accounts hlimit ha pcb hnew hneeds
  have hsame := (init_process_within (bitmap_within cfg) hbuilt).symm.trans h
  simp only [Option.some.injEq, Prod.mk.injEq] at hsame
  obtain ⟨rfl, rfl⟩ := hsame
  exact haccounts

end Requests

/-- The kernel initialises processes that are not live, asks for pages of live ones that are
not in memory, and ends live ones. -/
def Asked (s : Site) : KernelRequest → Prop
  | .initProcessStructuresMemory pcb => s.live pcb.processId = none
  | .requestPageFault pcb sn pn => ∃ v x, Requestable s.memory s.live pcb sn pn v x
  | .endStructures pcb => s.live pcb.processId = some pcb.segmentTable

instance (s : Site) : ∀ q, Decidable (Asked s q)
  | .initProcessStructuresMemory _ => inferInstanceAs (Decidable (_ = _))
  | .requestPageFault .. => inferInstanceAs (Decidable (∃ v x, Requestable _ _ _ _ _ v x))
  | .endStructures _ => inferInstanceAs (Decidable (_ = _))

def AskedRequest (s : Site) : Request → Prop
  | .kernel q => Asked s q
  | .cpu _ => True

instance (s : Site) : ∀ q, Decidable (AskedRequest s q)
  | .kernel q => inferInstanceAs (Decidable (Asked s q))
  | .cpu _ => inferInstanceAs (Decidable True)

theorem site_step_served {cfg : MemoryConfig} (hframes : 1 ≤ cfg.marcosPorProceso) (s : Site)
    (q : Request) (s' : Site) (ha : Accounts (bitmapConfig cfg) s.memory s.live)
    (hq : AskedRequest s q) (h : siteStep cfg s q = some s') :
    Accounts (bitmapConfig cfg) s'.memory s'.live := by
  obtain ⟨request, m', answer, rfl, hm', rfl⟩ | ⟨pcb, built, m', rfl, hinit, rfl⟩ |
    ⟨pcb, sn, pn, m', answer, rfl, hm', rfl⟩ | ⟨pcb, m', rfl, hdelete, rfl⟩ := site_step_cases h
  · exact accounts_same (cpu_same_holdings ha.holdings.ids hm') ha
  · exact init_served_accounts ha hframes hq hinit
  · obtain ⟨v, x, hv⟩ := hq
    exact fault_accounts ha hv hm'
  · obtain ⟨memory, swap, hd, haccounts⟩ := end_served ha pcb hq
    obtain rfl := Option.some.inj (hd.symm.trans hdelete)
    exact haccounts

theorem accounts_served {cfg : MemoryConfig} (hframes : 1 ≤ cfg.marcosPorProceso)
    (ram swap : ℕ → UInt8) (requests : List Request) (s : Site)
    (hg : Guarded (siteStep cfg) AskedRequest (boot cfg ram swap) requests)
    (h : run (siteStep cfg) (boot cfg ram swap) requests = some s) :
    Accounts (bitmapConfig cfg) s.memory s.live :=
  guarded_run (siteStep cfg) (fun s => Accounts (bitmapConfig cfg) s.memory s.live)
    AskedRequest (site_step_served hframes) requests _ s (boot_bitmaps cfg ram swap) hg h

end Geck.ServedAccounts
