import Geck.MemorySystem

/-!
# What a page contains

The contents of a page are in main memory while it is present and in its swap
slot while it is not. A page that has not been modified since it was loaded has
them in both places, which is what lets an eviction skip the write to swap.
-/

set_option autoImplicit false

namespace Geck.MemoryContents
open Geck.BlockStore Geck.SharedPcb Geck.MemoryState Geck.MemoryPaging
open Geck.MemoryHandlers Geck.MemoryReplacement Geck.MemoryAccounting Geck.MemoryAllocation
open Geck.MemoryFaults Geck.MemorySystem

def frameBytes (cfg : MemoryConfig) (m : Memory) (x : PageTableRow) : ℕ → UInt8 :=
  block cfg.tamPagina m.principalMemory x.frameNumber.toNat

def slotBytes (cfg : MemoryConfig) (m : Memory) (x : PageTableRow) : ℕ → UInt8 :=
  block cfg.tamPagina m.swapFile x.swapPosition.toNat

def contents (cfg : MemoryConfig) (m : Memory) (x : PageTableRow) : ℕ → UInt8 :=
  if x.presence then frameBytes cfg m x else slotBytes cfg m x

structure Synced (cfg : MemoryConfig) (m : Memory) (live : Live) : Prop where
  absent : ∀ p r x, LiveRow m live p r x → x.presence = false → x.modified = false
  clean : ∀ p r x, LiveRow m live p r x → x.presence = true → x.modified = false →
    ∀ k < cfg.tamPagina, frameBytes cfg m x k = slotBytes cfg m x k

/-- The pages that are live before and after keep their bytes. -/
def SameContents (cfg : MemoryConfig) (m m' : Memory) (live : Live) : Prop :=
  ∀ p r x x', LiveRow m live p r x → row m' r = some x' →
    ∀ k < cfg.tamPagina, contents cfg m' x' k = contents cfg m x k

/-- `m'` differs from `m` in use bits and in nothing a page contains. -/
structure SameButUse (m m' : Memory) : Prop where
  rows : ∀ r, (row m' r).map withoutUse = (row m r).map withoutUse
  ram : m'.principalMemory = m.principalMemory
  swap : m'.swapFile = m.swapFile

section Paging
variable {cfg : MemoryConfig} {m m' m₂ : Memory} {live : Live} {pid : ℤ} {v : PageRef}
  {x : PageTableRow} {f : ℤ} {c c₂ : ClockStruct}

theorem same_but_use_contents (h : SameButUse m m') (hs : Synced cfg m live) :
    SameContents cfg m m' live ∧ Synced cfg m' live := by
  have hback {p r y'} (hy' : LiveRow m' live p r y') :
      ∃ y, LiveRow m live p r y ∧ withoutUse y' = withoutUse y := by
    have hr := h.rows r
    rw [hy'.2] at hr
    obtain ⟨y, hy, he⟩ := Option.map_eq_some_iff.mp hr.symm
    exact ⟨y, ⟨hy'.1, hy⟩, he.symm⟩
  have hframe (y : PageTableRow) : frameBytes cfg m' y = frameBytes cfg m y := by
    simp [frameBytes, h.ram]
  have hslot (y : PageTableRow) : slotBytes cfg m' y = slotBytes cfg m y := by
    simp [slotBytes, h.swap]
  refine ⟨fun p r y y' hy hy' k _ => ?_, fun p r y' hy' hp => ?_, fun p r y' hy' hp hm k hk => ?_⟩
  · obtain ⟨z, hz, he⟩ := hback ⟨hy.1, hy'⟩
    obtain rfl := Option.some.inj (hz.2.symm.trans hy.2)
    simp only [withoutUse, PageTableRow.mk.injEq] at he
    simp [contents, frameBytes, slotBytes, he, h.ram, h.swap]
  · obtain ⟨y, hy, he⟩ := hback hy'
    simp only [withoutUse, PageTableRow.mk.injEq] at he
    rw [he.2.2.2.2]
    exact hs.absent p r y hy (he.2.2.1.symm.trans hp)
  · obtain ⟨y, hy, he⟩ := hback hy'
    simp only [withoutUse, PageTableRow.mk.injEq] at he
    have hclean := hs.clean p r y hy (he.2.2.1.symm.trans hp) (he.2.2.2.2.symm.trans hm) k hk
    rw [hframe, hslot]
    simpa only [frameBytes, slotBytes, he.1, he.2.1] using hclean

theorem touched_same_but_use {rows : List ClockRow} (h : Touched rows m m') : SameButUse m m' := by
  refine ⟨fun r => ?_, h.ram, h.swap⟩
  obtain hp | ⟨_, hp⟩ := h.pages r <;> rw [hp]
  cases row m r <;> rfl

theorem evicted_slot_other (hold : Holdings cfg m live) (hv : LiveRow m live pid v x)
    (hev : Evicted cfg m m' v x) {p : ℤ} {r : PageRef} {y : PageTableRow}
    (hy : LiveRow m live p r y) (hr : r ≠ v) (k : ℕ) (hk : k < cfg.tamPagina) :
    slotBytes cfg m' y k = slotBytes cfg m y k := by
  unfold slotBytes
  rw [hev.swap]
  split
  · refine block_put_other _ _ _ _ _ k hk fun hs => hr ?_
    have h0 := (marked_range (hold.slotMarked _ _ x hv)).1
    have h0' := (marked_range (hold.slotMarked _ _ y hy)).1
    exact hold.slotUnique p pid r v y x hy hv (by omega)
  · rfl

/-- The victim's slot holds the bytes of its frame once it is evicted, whether
or not they had to be written. -/
theorem evicted_slot_victim (hs : Synced cfg m live) (hv : LiveRow m live pid v x)
    (hx : x.presence = true) (hev : Evicted cfg m m' v x) (k : ℕ) (hk : k < cfg.tamPagina) :
    slotBytes cfg m' x k = frameBytes cfg m x k := by
  unfold slotBytes
  rw [hev.swap]
  cases hm : x.modified with
  | true =>
    simp only [if_true]
    exact block_put_same _ _ _ _ k hk
  | false => exact (hs.clean pid v x hv hx hm k hk).symm

theorem evicted_contents (hold : Holdings cfg m live) (hs : Synced cfg m live)
    (hv : LiveRow m live pid v x) (hx : x.presence = true) (hev : Evicted cfg m m' v x) :
    SameContents cfg m m' live ∧ Synced cfg m' live := by
  have hback {p r y'} (hy' : LiveRow m' live p r y') :
      (r = v ∧ y' = evictedRow x) ∨ (r ≠ v ∧ LiveRow m live p r y') := by
    by_cases hr : r = v
    · subst hr
      exact Or.inl ⟨rfl, Option.some.inj (hy'.2.symm.trans hev.gone)⟩
    · exact Or.inr ⟨hr, hy'.1, (hev.others r hr) ▸ hy'.2⟩
  have hframe (y : PageTableRow) : frameBytes cfg m' y = frameBytes cfg m y := by
    simp [frameBytes, hev.ram]
  refine ⟨fun p r y y' hy hy' k hk => ?_, fun p r y' hy' hp => ?_, fun p r y' hy' hp hm k hk => ?_⟩
  · obtain ⟨rfl, rfl⟩ | ⟨hr, hy'⟩ := hback ⟨hy.1, hy'⟩
    · obtain ⟨_, rfl⟩ := live_row_owner hold hv hy
      simp only [contents, hx, if_true]
      exact evicted_slot_victim hs hv hx hev k hk
    · obtain ⟨_, rfl⟩ := live_row_owner hold hy' hy
      unfold contents
      split
      · rw [hframe]
      · exact evicted_slot_other hold hv hev hy hr k hk
  · obtain ⟨rfl, rfl⟩ | ⟨_, hy'⟩ := hback hy'
    · rfl
    · exact hs.absent p r y' hy' hp
  · obtain ⟨rfl, rfl⟩ | ⟨hr, hy'⟩ := hback hy'
    · simp [evictedRow] at hp
    · rw [hframe, evicted_slot_other hold hv hev hy' hr k hk]
      exact hs.clean p r y' hy' hp hm k hk

theorem same_contents_trans {m₁ : Memory} (h : SameContents cfg m m₁ live)
    (h' : SameContents cfg m₁ m' live)
    (hrow : ∀ p r y, LiveRow m live p r y → ∃ z, row m₁ r = some z) :
    SameContents cfg m m' live := by
  intro p r y y' hy hy' k hk
  obtain ⟨z, hz⟩ := hrow p r y hy
  rw [h' p r z y' ⟨hy.1, hz⟩ hy' k hk, h p r y z hy hz k hk]

theorem shape_row {m₁ : Memory} (h : tableShape m₁ = tableShape m) {r : PageRef}
    {y : PageTableRow} (hy : row m r = some y) : ∃ z, row m₁ r = some z := by
  have := row_isSome_shape h r
  rw [hy] at this
  exact Option.isSome_iff_exists.mp this

theorem room_contents (hold : Holdings cfg m live) (hs : Synced cfg m live)
    (h : Room cfg m live pid c m₂ c₂ f) : SameContents cfg m m₂ live ∧ Synced cfg m₂ live := by
  cases h with
  | free =>
    refine ⟨fun p r y y' hy hy' k _ => ?_, hs⟩
    rw [Option.some.inj (hy'.symm.trans hy.2)]
  | replaced m₁ m' k x p touched chosen victim resident frame evicted =>
    have hold₁ := holdings_same (touched_same_holdings touched) hold
    obtain ⟨hc₁, hs₁⟩ := same_but_use_contents (touched_same_but_use touched) hs
    obtain ⟨hc₂, hs₂⟩ := evicted_contents hold₁ hs₁ victim resident evicted
    exact ⟨same_contents_trans hc₁ hc₂ fun p r y hy => shape_row touched.shape hy.2,
      hs₂.absent, hs₂.clean⟩

theorem loaded_contents (hold : Holdings cfg m live) (hs : Synced cfg m live)
    (hv : LiveRow m live pid v x) (hx : x.presence = false) (hf : InFrames cfg f)
    (hun : ¬Marked m.bitmapMemory f) (h : Loaded cfg m m' pid v x f c) :
    SameContents cfg m m' live ∧ Synced cfg m' live := by
  have hback {p r y'} (hy' : LiveRow m' live p r y') :
      (r = v ∧ y' = loadedRow f x) ∨ (r ≠ v ∧ LiveRow m live p r y') := by
    by_cases hr : r = v
    · subst hr
      exact Or.inl ⟨rfl, Option.some.inj (hy'.2.symm.trans h.after)⟩
    · exact Or.inr ⟨hr, hy'.1, (h.others r hr) ▸ hy'.2⟩
  have hslot (y : PageTableRow) : slotBytes cfg m' y = slotBytes cfg m y := by
    simp [slotBytes, h.swap]
  have hframe {p r y} (hy : LiveRow m live p r y) (hp : y.presence = true) (k : ℕ)
      (hk : k < cfg.tamPagina) : frameBytes cfg m' y k = frameBytes cfg m y k := by
    unfold frameBytes
    rw [h.ram]
    refine block_put_other _ _ _ _ _ k hk fun hn => hun ?_
    have hm := hold.frameMarked p r y hy hp
    have h0 := (marked_range hm).1
    have h0' := hf.1
    rwa [show f = y.frameNumber by omega]
  have hnew (k : ℕ) (hk : k < cfg.tamPagina) :
      frameBytes cfg m' (loadedRow f x) k = slotBytes cfg m x k := by
    unfold frameBytes
    rw [h.ram]
    exact block_put_same _ _ _ _ k hk
  refine ⟨fun p r y y' hy hy' k hk => ?_, fun p r y' hy' hp => ?_, fun p r y' hy' hp hm k hk => ?_⟩
  · obtain ⟨rfl, rfl⟩ | ⟨hr, hy'⟩ := hback ⟨hy.1, hy'⟩
    · obtain ⟨_, rfl⟩ := live_row_owner hold hv hy
      have hp : (loadedRow f x).presence = true := rfl
      simp only [contents, hx, hp, if_true]
      exact hnew k hk
    · obtain ⟨_, rfl⟩ := live_row_owner hold hy' hy
      unfold contents
      split
      · exact hframe hy (by assumption) k hk
      · rw [hslot]
  · obtain ⟨rfl, rfl⟩ | ⟨_, hy'⟩ := hback hy'
    · simp [loadedRow] at hp
    · exact hs.absent p r y' hy' hp
  · obtain ⟨rfl, rfl⟩ | ⟨_, hy'⟩ := hback hy'
    · rw [hnew k hk, hslot]
      rfl
    · rw [hframe hy' hp k hk, hslot]
      exact hs.clean p r y' hy' hp hm k hk

/-- A page fault changes the contents of no live page. -/
theorem served_contents (ha : Accounts cfg m live) (hs : Synced cfg m live)
    (h : Served cfg m m' live pid v x f m₂ c c₂) :
    SameContents cfg m m' live ∧ Synced cfg m' live := by
  obtain ⟨hc₂, hs₂⟩ := room_contents ha.holdings hs h.room
  obtain ⟨hin, hun⟩ := room_frame ha.holdings h.room
  obtain ⟨hc', hs'⟩ := loaded_contents (room_holdings ha.holdings h.room) hs₂
    ⟨h.target.1, h.loaded.before⟩ h.absent hin hun h.loaded
  exact ⟨same_contents_trans hc₂ hc' fun p r y hy => shape_row (room_shape h.room) hy.2, hs'⟩

end Paging

theorem mark_use_same_but_use (f : ℤ) (rows : List ClockRow) (m : Memory) :
    SameButUse m (markUse f rows m) := by
  induction rows generalizing m with
  | nil => exact ⟨fun _ => rfl, rfl, rfl⟩
  | cons k rows ih =>
    unfold markUse
    split
    · have h := ih (modifyRow m k.page fun r => { r with use := true })
      refine ⟨fun r => ?_, h.ram, h.swap⟩
      rw [h.rows, row_modify]
      split
      · cases row m r <;> rfl
      · rfl
    · exact ih m

/-- The effect of `save_value_in_memory` on a present page. -/
structure Stored (cfg : MemoryConfig) (m m' : Memory) (v : PageRef) (x : PageTableRow)
    (offset : ℕ) (value : UInt32) : Prop where
  before : row m v = some x
  after : row m' v = some { x with modified := true }
  others : ∀ r, r ≠ v → row m' r = row m r
  ram : m'.principalMemory =
    storeWord m.principalMemory (x.frameNumber.toNat*cfg.tamPagina+offset) value
  swap : m'.swapFile = m.swapFile

theorem store_block_same (size f offset : ℕ) (s : ℕ → UInt8) (value : UInt32) (k : ℕ) :
    block size (storeWord s (f*size+offset) value) f k =
      storeWord (block size s f) offset value k := by
  unfold block storeWord
  have h : (f*size+offset ≤ f*size+k ∧ f*size+k < f*size+offset+4) ↔
      (offset ≤ k ∧ k < offset+4) := by omega
  simp only [h]
  split
  · congr 1
    omega
  · rfl

theorem store_block_other (size f g offset : ℕ) (s : ℕ → UInt8) (value : UInt32)
    (hoffset : offset+4 ≤ size) (hfg : f ≠ g) (k : ℕ) (hk : k < size) :
    block size (storeWord s (f*size+offset) value) g k = block size s g k := by
  unfold block storeWord
  rw [if_neg fun h => hfg (block_address size f g k hk (by omega))]

theorem stored_contents {cfg : MemoryConfig} {m m' : Memory} {live : Live} {pid : ℤ} {v : PageRef}
    {x : PageTableRow} {offset : ℕ} {value : UInt32} (hold : Holdings cfg m live)
    (hs : Synced cfg m live) (hv : LiveRow m live pid v x) (hx : x.presence = true)
    (hoffset : offset+4 ≤ cfg.tamPagina) (h : Stored cfg m m' v x offset value) :
    (∀ p r y y', LiveRow m live p r y → row m' r = some y' → ∀ k < cfg.tamPagina,
      contents cfg m' y' k = if r = v then storeWord (contents cfg m y) offset value k
        else contents cfg m y k) ∧ Synced cfg m' live := by
  have hback {p r y'} (hy' : LiveRow m' live p r y') :
      (r = v ∧ y' = { x with modified := true }) ∨ (r ≠ v ∧ LiveRow m live p r y') := by
    by_cases hr : r = v
    · subst hr
      exact Or.inl ⟨rfl, Option.some.inj (hy'.2.symm.trans h.after)⟩
    · exact Or.inr ⟨hr, hy'.1, (h.others r hr) ▸ hy'.2⟩
  have hslot (y : PageTableRow) : slotBytes cfg m' y = slotBytes cfg m y := by
    simp [slotBytes, h.swap]
  have hframe {p r y} (hr : r ≠ v) (hy : LiveRow m live p r y) (hp : y.presence = true) (k : ℕ)
      (hk : k < cfg.tamPagina) : frameBytes cfg m' y k = frameBytes cfg m y k := by
    unfold frameBytes
    rw [h.ram]
    refine store_block_other _ _ _ _ _ _ hoffset (fun hn => hr ?_) k hk
    have h0 := (marked_range (hold.frameMarked _ _ x hv hx)).1
    have h0' := (marked_range (hold.frameMarked _ _ y hy hp)).1
    exact hold.frameUnique p pid r v y x hy hv hp hx (by omega)
  refine ⟨fun p r y y' hy hy' k hk => ?_, fun p r y' hy' hp => ?_, fun p r y' hy' hp hm k hk => ?_⟩
  · obtain ⟨rfl, rfl⟩ | ⟨hr, hy'⟩ := hback ⟨hy.1, hy'⟩
    · obtain ⟨_, rfl⟩ := live_row_owner hold hv hy
      simp only [contents, hx, if_true, frameBytes, h.ram]
      exact store_block_same ..
    · obtain ⟨_, rfl⟩ := live_row_owner hold hy' hy
      rw [if_neg hr]
      unfold contents
      split
      · exact hframe hr hy (by assumption) k hk
      · rw [hslot]
  · obtain ⟨rfl, rfl⟩ | ⟨_, hy'⟩ := hback hy'
    · simp [hx] at hp
    · exact hs.absent p r y' hy' hp
  · obtain ⟨rfl, rfl⟩ | ⟨hr, hy'⟩ := hback hy'
    · simp at hm
    · rw [hframe hr hy' hp k hk, hslot]
      exact hs.clean p r y' hy' hp hm k hk

end Geck.MemoryContents
