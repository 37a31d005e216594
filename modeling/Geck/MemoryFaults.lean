import Geck.MemoryAllocation

/-!
# Serving a page fault

A fault first makes room, by taking a free frame or by evicting a page of the
same process, and then loads the page into that frame. Both halves keep the
accounts; between them the clock of the process has a hole at the frame.
-/

set_option autoImplicit false

namespace Geck.MemoryFaults
open Geck.BlockStore Geck.SharedPcb Geck.MemoryState Geck.MemoryPaging
open Geck.MemoryHandlers Geck.MemoryReplacement Geck.MemoryAccounting Geck.MemoryAllocation

structure ValidConfig (cfg : MemoryConfig) : Prop where
  page : 0 < cfg.tamPagina
  frames : 1 ≤ cfg.marcosPorProceso
  ramBytes : 8 ∣ ramPages cfg
  swapBytes : 8 ∣ swapPages cfg
  algorithm : cfg.algoritmoReemplazo ≠ .other

/-- Eight frames and eight slots of four bytes, one frame for each process. -/
def smallConfig : MemoryConfig where
  tamMemoria := 32
  tamPagina := 4
  entradasPorTabla := 4
  algoritmoReemplazo := .clock
  marcosPorProceso := 1
  tamanioSwap := 32

theorem small_config_valid : ValidConfig smallConfig := by
  constructor <;> decide

def zeros : ℕ → UInt8 := fun _ => 0

/-- A process of one segment of two pages, with its table as memory answers it. -/
def smallPcb (indexPage : ℤ) : Pcb :=
  { pcbCreate [] 0 1 [] with segmentTable := [{ indexPage := indexPage, number := 0, size := 8 }] }

/-- The row of a page as `REQUEST_PAGE_FAULT` leaves it. -/
def loadedRow (f : ℤ) (x : PageTableRow) : PageTableRow :=
  { x with frameNumber := f, presence := true, use := true }

/-- What deciding the frame `f` did to `m`: nothing, or one eviction. -/
inductive Room (cfg : MemoryConfig) (m : Memory) (live : Live) (pid : ℤ) (c : ClockStruct) :
    Memory → ClockStruct → ℤ → Prop
  | free (f : ℤ) (few : c.framesInMemory.length < cfg.marcosPorProceso) (range : InFrames cfg f)
      (unused : ¬Marked m.bitmapMemory f) : Room cfg m live pid c m c f
  | replaced (m₁ m' : Memory) (k : ClockRow) (x : PageTableRow) (p : ℕ)
      (touched : Touched c.framesInMemory m m₁) (chosen : k ∈ c.framesInMemory)
      (victim : LiveRow m₁ live pid k.page x) (resident : x.presence = true)
      (frame : x.frameNumber = k.frameNumberInMemory) (evicted : Evicted cfg m₁ m' k.page x)
      (pointer : p < cfg.marcosPorProceso)
      (full : c.framesInMemory.length = cfg.marcosPorProceso) :
      Room cfg m live pid c (setStructClock m' pid { c with pointer := p })
        { c with pointer := p } k.frameNumberInMemory

/-- `m'` is `m` with the page `v`, whose row was `x`, loaded into the frame `f`. -/
structure Loaded (cfg : MemoryConfig) (m m' : Memory) (pid : ℤ) (v : PageRef) (x : PageTableRow)
    (f : ℤ) (c : ClockStruct) : Prop where
  before : row m v = some x
  after : row m' v = some (loadedRow f x)
  others : ∀ r, r ≠ v → row m' r = row m r
  shape : tableShape m' = tableShape m
  ram : m'.principalMemory = putBlock cfg.tamPagina m.principalMemory f.toNat
    (block cfg.tamPagina m.swapFile x.swapPosition.toNat)
  swap : m'.swapFile = m.swapFile
  memoryBits : ∀ g, Marked m'.bitmapMemory g ↔ g = f ∨ Marked m.bitmapMemory g
  memoryLength : m'.bitmapMemory.length = m.bitmapMemory.length
  swapBits : m'.bitmapSwap = m.bitmapSwap
  clocks : m'.clockStructures = Function.update m.clockStructures pid (some
    { c with framesInMemory := addPageRows f v x.swapPosition c.framesInMemory })
  counter : m'.pageTablesCounter = m.pageTablesCounter

theorem mirror_in_frames {cfg : MemoryConfig} {m : Memory} {live : Live} {pid : ℤ}
    {c : ClockStruct} (hold : Holdings cfg m live) (hm : Mirror cfg m live pid c none) :
    Evictable cfg m c.framesInMemory := by
  intro k hk
  obtain ⟨x, hx, hp, _⟩ := hm.rows k hk (by simp)
  have hf := marked_range (hold.frameMarked _ _ x hx hp)
  have hs := marked_range (hold.slotMarked _ _ x hx)
  exact ⟨x, hx.2, ⟨hf.1, hold.memoryLength ▸ hf.2⟩, ⟨hs.1, hold.swapLength ▸ hs.2⟩⟩

/-- The bitmap of main memory has a clear bit among the first `swapPages` even
when there are fewer swap pages than frames: a frame in use holds a page with a
slot of its own, and the page that faulted has a slot and no frame. -/
theorem clear_frame_below {cfg : MemoryConfig} {m : Memory} {live : Live}
    (hold : Holdings cfg m live) {pid : ℤ} {v : PageRef} {x : PageTableRow}
    (hv : LiveRow m live pid v x) (hx : x.presence = false) :
    ∃ j : ℕ, j < swapPages cfg ∧ ¬Marked m.bitmapMemory j := by
  by_contra hall
  push Not at hall
  have hheld (j : Fin (swapPages cfg)) : ∃ s : Fin (swapPages cfg), ∃ p r y,
      LiveRow m live p r y ∧ y.presence = true ∧ y.frameNumber = (j : ℕ) ∧
        y.swapPosition = (s : ℕ) := by
    obtain ⟨p, r, y, hy, hp, hf⟩ := hold.frameHeld _ (hall j j.2)
    obtain ⟨h0, hs⟩ := marked_range (hold.slotMarked p r y hy)
    rw [hold.swapLength] at hs
    exact ⟨⟨y.swapPosition.toNat, by omega⟩, p, r, y, hy, hp, hf, by simp [h0]⟩
  choose s hs using hheld
  have hinj : Function.Injective s := by
    intro i j hij
    obtain ⟨p, r, y, hy, _, hfy, hsy⟩ := hs i
    obtain ⟨q, r', z, hz, _, hfz, hsz⟩ := hs j
    obtain rfl := hold.slotUnique p q r r' y z hy hz (by rw [hsy, hsz, hij])
    obtain ⟨_, rfl⟩ := live_row_owner hold hy hz
    exact Fin.ext (by exact_mod_cast hfy.symm.trans hfz)
  obtain ⟨h0, hlt⟩ := marked_range (hold.slotMarked pid v x hv)
  rw [hold.swapLength] at hlt
  obtain ⟨j, hj⟩ := Finite.surjective_of_injective hinj ⟨x.swapPosition.toNat, by omega⟩
  obtain ⟨p, r, y, hy, hp, _, hsy⟩ := hs j
  rw [hj] at hsy
  obtain rfl := hold.slotUnique p pid r v y x hy hv (by rw [hsy]; simp [h0])
  obtain ⟨_, rfl⟩ := live_row_owner hold hy hv
  simp [hx] at hp

theorem find_frame_free {cfg : MemoryConfig} {m : Memory} {live : Live}
    (hold : Holdings cfg m live) {pid : ℤ} {v : PageRef} {x : PageTableRow}
    (hv : LiveRow m live pid v x) (hx : x.presence = false)
    (hfree : ∃ f, InFrames cfg f ∧ ¬Marked m.bitmapMemory f) :
    ∃ f, findPageFree cfg m.bitmapMemory = some f ∧ InFrames cfg f ∧ ¬Marked m.bitmapMemory f := by
  have found (j : ℕ) (hj : j < swapPages cfg) (hr : j < ramPages cfg)
      (hm : ¬Marked m.bitmapMemory j) :
      ∃ f, findPageFree cfg m.bitmapMemory = some f ∧ InFrames cfg f ∧
        ¬Marked m.bitmapMemory f := by
    have hc : Clear m.bitmapMemory j := clear_iff.mpr
      ⟨⟨by omega, by rw [hold.memoryLength]; omega⟩, hm⟩
    obtain ⟨f, hf, hcf, hle⟩ := find_page_free_clear cfg m.bitmapMemory j hj hc
    exact ⟨f, hf, ⟨by omega, by omega⟩, (clear_iff.mp hcf).2⟩
  by_cases hle : swapPages cfg ≤ ramPages cfg
  · obtain ⟨j, hj, hm⟩ := clear_frame_below hold hv hx
    exact found j hj (by omega) hm
  · obtain ⟨f, ⟨h0, hf⟩, hm⟩ := hfree
    obtain ⟨j, rfl⟩ := Int.eq_ofNat_of_zero_le h0
    exact found j (by omega) (by omega) hm

theorem choose_frame_room {cfg : MemoryConfig} (halg : cfg.algoritmoReemplazo ≠ .other)
    {m : Memory} {live : Live} (hold : Holdings cfg m live) {pid : ℤ} {c : ClockStruct}
    (hc : m.clockStructures pid = some c) (hm : Mirror cfg m live pid c none) {v : PageRef}
    {x : PageTableRow} (hv : LiveRow m live pid v x) (hx : x.presence = false)
    (hfree : c.framesInMemory.length < cfg.marcosPorProceso →
      ∃ f, InFrames cfg f ∧ ¬Marked m.bitmapMemory f) :
    ∃ m' c' f, chooseFrame cfg m pid = some (m', f) ∧ Room cfg m live pid c m' c' f := by
  by_cases hfull : c.framesInMemory.length = cfg.marcosPorProceso
  · obtain ⟨m₁, m', k, x, p, ht, hk, _, hev, hp, hr⟩ := replacement_chosen cfg m pid c
      halg hc hfull hm.pointer (mirror_in_frames hold hm) hold.memoryLength
    obtain ⟨y, hy, hpy, hfy, _⟩ := (mirror_same (touched_same_holdings ht) hm).rows k hk (by simp)
    obtain rfl := Option.some.inj (hy.2.symm.trans hev.victim)
    exact ⟨_, _, _, (choose_frame_full hc hfull).trans hr,
      Room.replaced m₁ m' k y p ht hk hy hpy hfy hev hp hfull⟩
  · have hlt := lt_of_le_of_ne hm.bound hfull
    obtain ⟨f, hf, hin, hun⟩ := find_frame_free hold hv hx (hfree hlt)
    exact ⟨m, c, f, by rw [choose_frame_below hc hfull, hf]; rfl,
      Room.free f hlt hin hun⟩

theorem holdings_clock {cfg : MemoryConfig} {m : Memory} {live : Live} (pid : ℤ) (c : ClockStruct)
    (h : Holdings cfg m live) : Holdings cfg (setStructClock m pid c) live :=
  ⟨h.ids, h.counter, h.inRange, h.disjoint, h.injective, h.memoryLength, h.swapLength,
    h.frameMarked, h.frameHeld, h.frameUnique, h.slotMarked, h.slotHeld, h.slotUnique⟩

section Making
variable {cfg : MemoryConfig} {m m' : Memory} {live : Live} {pid : ℤ} {c c' : ClockStruct} {f : ℤ}

theorem evicted_holdings {m₁ : Memory} {v : PageRef} {x : PageTableRow}
    (hold : Holdings cfg m₁ live) (hv : LiveRow m₁ live pid v x) (hx : x.presence = true)
    (hev : Evicted cfg m₁ m' v x) : Holdings cfg m' live := by
  refine holdings_row_change hold hv hev.gone hev.others hev.shape rfl hev.swapBits hev.counter
    hev.memoryLength (fun g => ?_) (by simp [evictedRow])
  rw [hev.memoryBits]
  simp [evictedRow, hx, and_comm]

theorem room_holdings (hold : Holdings cfg m live) (h : Room cfg m live pid c m' c' f) :
    Holdings cfg m' live := by
  cases h with
  | free => exact hold
  | replaced m₁ m' k x p touched chosen victim resident frame evicted =>
    exact holdings_clock pid _ (evicted_holdings (holdings_same (touched_same_holdings touched) hold)
      victim resident evicted)

theorem room_frame (hold : Holdings cfg m live) (h : Room cfg m live pid c m' c' f) :
    InFrames cfg f ∧ ¬Marked m'.bitmapMemory f := by
  cases h with
  | free f few range unused => exact ⟨range, unused⟩
  | replaced m₁ m' k x p touched chosen victim resident frame evicted =>
    have h₁ := holdings_same (touched_same_holdings touched) hold
    have hr := marked_range (h₁.frameMarked _ _ x victim resident)
    rw [h₁.memoryLength, frame] at hr
    refine ⟨hr, ?_⟩
    change ¬Marked m'.bitmapMemory _
    simp [evicted.memoryBits, frame]

theorem room_clocks (hc : m.clockStructures pid = some c) (h : Room cfg m live pid c m' c' f) :
    m'.clockStructures = Function.update m.clockStructures pid (some c') := by
  cases h with
  | free => rw [← hc, Function.update_eq_self]
  | replaced m₁ m' k x p touched chosen victim resident frame evicted =>
    change Function.update m'.clockStructures pid _ = _
    rw [evicted.clocks, touched.clocks]

theorem room_shape (h : Room cfg m live pid c m' c' f) : tableShape m' = tableShape m := by
  cases h with
  | free => rfl
  | replaced m₁ m' k x p touched chosen victim resident frame evicted =>
    exact evicted.shape.trans touched.shape

/-- Making room changes rows of the clock's pages only. -/
theorem room_row (h : Room cfg m live pid c m' c' f) (r : PageRef)
    (hr : ∀ k ∈ c.framesInMemory, k.page ≠ r) : row m' r = row m r := by
  cases h with
  | free => rfl
  | replaced m₁ m' k x p touched chosen victim resident frame evicted =>
    change row m' r = _
    rw [evicted.others r fun h => hr k chosen h.symm]
    obtain h | ⟨⟨k', hk', hp⟩, _⟩ := touched.pages r
    · exact h
    · exact absurd hp (hr k' hk')

theorem room_frames (h : Room cfg m live pid c m' c' f) :
    c'.framesInMemory = c.framesInMemory ∧
      (f ∈ c.framesInMemory.map ClockRow.frameNumberInMemory ∨
        c.framesInMemory.length < cfg.marcosPorProceso) := by
  cases h with
  | free f few => exact ⟨rfl, Or.inr few⟩
  | replaced m₁ m' k x p touched chosen => exact ⟨rfl, Or.inl (List.mem_map_of_mem chosen)⟩

theorem room_mirror (hold : Holdings cfg m live) (hm : Mirror cfg m live pid c none)
    (h : Room cfg m live pid c m' c' f) : Mirror cfg m' live pid c' (some f) := by
  cases h with
  | free f few range unused =>
    refine ⟨fun k hk _ => hm.rows k hk (by simp), fun r x hx hp => ?_, hm.frames, hm.bound,
      hm.pointer, hm.still⟩
    obtain ⟨k, hk, hr, _⟩ := hm.pages r x hx hp
    obtain ⟨y, hy, _, hf, _⟩ := hm.rows k hk (by simp)
    obtain rfl := Option.some.inj ((hr ▸ hy.2).symm.trans hx.2)
    refine ⟨k, hk, hr, fun hh => unused ?_⟩
    rw [Option.some.inj hh, ← hf]
    exact hold.frameMarked pid r y hx hp
  | replaced m₁ m' k x p touched chosen victim resident frame evicted pointer full =>
    have hm₁ := mirror_same (touched_same_holdings touched) hm
    have moved (r : PageRef) : row (setStructClock m' pid { c with pointer := p }) r = row m' r := rfl
    refine ⟨fun k' hk' hh => ?_, fun r y hy hp => ?_, hm.frames, hm.bound, pointer, fun hlt => ?_⟩
    · obtain ⟨y, hy, hp, hf, hs⟩ := hm₁.rows k' hk' (by simp)
      have hne : k'.page ≠ k.page := by
        intro he
        obtain rfl := Option.some.inj ((he ▸ hy.2).symm.trans victim.2)
        exact hh (by rw [← hf, ← frame])
      exact ⟨y, ⟨hy.1, by rw [moved, evicted.others _ hne]; exact hy.2⟩, hp, hf, hs⟩
    · have hne : r ≠ k.page := by
        rintro rfl
        obtain rfl := Option.some.inj (hy.2.symm.trans evicted.gone)
        simp [evictedRow] at hp
      have hy₁ : LiveRow m₁ live pid r y := ⟨hy.1, by rw [← evicted.others r hne]; exact hy.2⟩
      obtain ⟨k', hk', hr, _⟩ := hm₁.pages r y hy₁ hp
      refine ⟨k', hk', hr, fun hh => hne ?_⟩
      have hkk := List.inj_on_of_nodup_map hm.frames chosen hk' (Option.some.inj hh)
      rw [hkk, hr]
    · exact absurd full (Nat.ne_of_lt hlt)

/-- A page that is not resident is none of the clock's, so making room leaves its row alone. -/
theorem room_target (hm : Mirror cfg m live pid c none) {v : PageRef} {x : PageTableRow}
    (hx : x.presence = false) (hv : row m v = some x) (h : Room cfg m live pid c m' c' f) :
    row m' v = row m v := by
  refine room_row h v ?_
  rintro k hk rfl
  obtain ⟨y, hy, hp, _⟩ := hm.rows k hk (by simp)
  obtain rfl := Option.some.inj (hy.2.symm.trans hv)
  simp [hx] at hp

end Making

theorem load_page_loads (cfg : MemoryConfig) (m : Memory) (pid : ℤ) (v : PageRef)
    (x : PageTableRow) (f : ℤ) (c : ClockStruct) (hx : row m v = some x)
    (hs : InSlots cfg x.swapPosition) (hf : InFrames cfg f)
    (hlen : m.bitmapMemory.length = ramPages cfg) (hc : m.clockStructures pid = some c) :
    ∃ m', loadPage cfg m pid v f = some m' ∧ Loaded cfg m m' pid v x f c := by
  have hbit : f < m.bitmapMemory.length := by rw [hlen]; exact hf.2
  obtain ⟨bits, hb⟩ := write_bit_total m.bitmapMemory f true hf.1 hbit
  have hrow (r : PageRef) := row_modify m v r (loadedRow f)
  refine ⟨setStructClock
    { modifyRow m v (loadedRow f) with
      principalMemory := putBlock cfg.tamPagina m.principalMemory f.toNat
        (block cfg.tamPagina m.swapFile x.swapPosition.toNat)
      bitmapMemory := bits } pid
    { c with framesInMemory := addPageRows f v x.swapPosition c.framesInMemory }, ?_, ?_⟩
  · simp [loadPage, hx, readPageSwap, hs.1, hs.2, writeFrame, hf.1, hf.2, hb,
      addPageToClockStructure, getStructClock, hc, modifyRow, setStructClock]
    rfl
  · constructor <;> try rfl
    · exact hx
    · change row (modifyRow m v (loadedRow f)) v = _
      simp [hrow, hx]
    · intro r hr
      change row (modifyRow m v (loadedRow f)) r = _
      simp [hrow, hr]
    · exact shape_modify m v (loadedRow f)
    · intro g
      change Marked bits g ↔ _
      rw [write_bit_marked hb]
      by_cases hg : g = f <;> simp [hg]
    · exact write_bit_length hb

theorem mem_add_page_rows (f : ℤ) (v : PageRef) (s : ℤ) (rows : List ClockRow)
    (hn : (rows.map ClockRow.frameNumberInMemory).Nodup) (k : ClockRow) :
    k ∈ addPageRows f v s rows ↔ k = ⟨f, v, s⟩ ∨ (k ∈ rows ∧ k.frameNumberInMemory ≠ f) := by
  induction rows with
  | nil => simp [addPageRows]
  | cons c rows ih =>
    rw [List.map_cons, List.nodup_cons] at hn
    unfold addPageRows
    split
    · rename_i hf
      subst hf
      have hout : ∀ k ∈ rows, k.frameNumberInMemory ≠ c.frameNumberInMemory := fun k hk he =>
        hn.1 (he ▸ List.mem_map_of_mem hk)
      simp only [List.mem_cons]
      constructor
      · rintro (h | h)
        · exact Or.inl h
        · exact Or.inr ⟨Or.inr h, hout k h⟩
      · rintro (h | ⟨rfl | h, hne⟩)
        · exact Or.inl h
        · exact absurd rfl hne
        · exact Or.inr h
    · rename_i hf
      simp only [List.mem_cons, ih hn.2]
      constructor
      · rintro (rfl | h | ⟨h, hne⟩)
        · exact Or.inr ⟨Or.inl rfl, fun h => hf h.symm⟩
        · exact Or.inl h
        · exact Or.inr ⟨Or.inr h, hne⟩
      · rintro (h | ⟨rfl | h, hne⟩)
        · exact Or.inr (Or.inl h)
        · exact Or.inl rfl
        · exact Or.inr (Or.inr ⟨h, hne⟩)

theorem add_page_rows_frames (f : ℤ) (v : PageRef) (s : ℤ) (rows : List ClockRow) :
    (addPageRows f v s rows).map ClockRow.frameNumberInMemory =
      if f ∈ rows.map ClockRow.frameNumberInMemory then rows.map ClockRow.frameNumberInMemory
      else rows.map ClockRow.frameNumberInMemory++[f] := by
  induction rows with
  | nil => simp [addPageRows]
  | cons c rows ih =>
    unfold addPageRows
    by_cases hf : f = c.frameNumberInMemory
    · simp [hf]
    · simp only [hf, if_false, List.map_cons, ih, List.mem_cons, false_or]
      split <;> simp

section Loading
variable {cfg : MemoryConfig} {m m' : Memory} {live : Live} {pid : ℤ} {c : ClockStruct} {f : ℤ}
  {v : PageRef} {x : PageTableRow}

theorem loaded_holdings (hold : Holdings cfg m live) (hv : LiveRow m live pid v x)
    (hx : x.presence = false) (hf : ¬Marked m.bitmapMemory f)
    (h : Loaded cfg m m' pid v x f c) : Holdings cfg m' live := by
  refine holdings_row_change hold hv h.after h.others h.shape rfl h.swapBits h.counter
    h.memoryLength (fun g => ?_) fun _ hh => hf hh.1
  rw [h.memoryBits]
  simp [loadedRow, hx]

theorem loaded_mirror (hm : Mirror cfg m live pid c (some f)) (hv : LiveRow m live pid v x)
    (hx : x.presence = false) (hroom : f ∈ c.framesInMemory.map ClockRow.frameNumberInMemory ∨
      c.framesInMemory.length < cfg.marcosPorProceso) (h : Loaded cfg m m' pid v x f c) :
    Mirror cfg m' live pid
      { c with framesInMemory := addPageRows f v x.swapPosition c.framesInMemory } none := by
  have hmem := mem_add_page_rows f v x.swapPosition c.framesInMemory hm.frames
  have hframes := add_page_rows_frames f v x.swapPosition c.framesInMemory
  have hlength : (addPageRows f v x.swapPosition c.framesInMemory).length =
      if f ∈ c.framesInMemory.map ClockRow.frameNumberInMemory then c.framesInMemory.length
      else c.framesInMemory.length+1 := by
    have := congrArg List.length hframes
    rw [List.length_map] at this
    split at this <;> simp_all
  refine ⟨fun k hk _ => ?_, fun r y hy hp => ?_, ?_, ?_, hm.pointer, fun hlt => hm.still ?_⟩
  · obtain rfl | ⟨hk, hne⟩ := (hmem k).mp hk
    · exact ⟨loadedRow f x, ⟨hv.1, h.after⟩, rfl, rfl, rfl⟩
    · obtain ⟨y, hy, hp, hfs⟩ := hm.rows k hk fun hh => hne (Option.some.inj hh).symm
      have hpage : k.page ≠ v := by
        intro he
        obtain rfl := Option.some.inj ((he ▸ hy.2).symm.trans hv.2)
        simp [hx] at hp
      exact ⟨y, ⟨hy.1, (h.others _ hpage).trans hy.2⟩, hp, hfs⟩
  · by_cases hr : r = v
    · exact ⟨⟨f, v, x.swapPosition⟩, (hmem _).mpr (Or.inl rfl), hr.symm, by simp⟩
    · obtain ⟨k, hk, hkr, hh⟩ := hm.pages r y ⟨hy.1, (h.others r hr) ▸ hy.2⟩ hp
      exact ⟨k, (hmem k).mpr (Or.inr ⟨hk, fun he => hh (he ▸ rfl)⟩), hkr, by simp⟩
  · simp only [hframes]
    split
    · exact hm.frames
    · rename_i hnot
      exact List.nodup_append.mpr ⟨hm.frames, by simp, by
        intro a ha b hb hab
        simp only [List.mem_singleton] at hb
        exact hnot (hb ▸ hab ▸ ha)⟩
  · simp only [hlength]
    split
    · exact hm.bound
    · rename_i hnot
      exact hroom.resolve_left hnot
  · simp only [hlength] at hlt
    split at hlt <;> omega

end Loading

theorem mirror_other {cfg : MemoryConfig} {m m' : Memory} {live live' : Live} {q : ℤ}
    {c : ClockStruct} {hole : Option ℤ}
    (h : ∀ r y, LiveRow m' live' q r y ↔ LiveRow m live q r y)
    (hm : Mirror cfg m live q c hole) : Mirror cfg m' live' q c hole := by
  refine ⟨fun k hk hh => ?_, fun r y hy => hm.pages r y ((h r y).mp hy), hm.frames, hm.bound,
    hm.pointer, hm.still⟩
  obtain ⟨y, hy, hrest⟩ := hm.rows k hk hh
  exact ⟨y, (h _ _).mpr hy, hrest⟩

/-- The page that a segment number and a page number stand for. -/
def requestedPage (segments : List Segment) (segmentNumber pageNumber : ℤ) : Option PageRef := do
  let segment ← listGet segments segmentNumber
  if 0 ≤ segment.indexPage ∧ 0 ≤ pageNumber then
    some ⟨segment.indexPage.toNat, pageNumber.toNat⟩
  else none

/-- A page fault on a non-present page of a live process. -/
structure Requestable (m : Memory) (live : Live) (pcb : Pcb) (segmentNumber pageNumber : ℤ)
    (v : PageRef) (x : PageTableRow) : Prop where
  alive : live pcb.processId = some pcb.segmentTable
  page : requestedPage pcb.segmentTable segmentNumber pageNumber = some v
  found : row m v = some x
  absent : x.presence = false

instance (m : Memory) (live : Live) (pcb : Pcb) (segmentNumber pageNumber : ℤ) :
    Decidable (∃ v x, Requestable m live pcb segmentNumber pageNumber v x) :=
  decidable_of_iff (live pcb.processId = some pcb.segmentTable ∧
    ((requestedPage pcb.segmentTable segmentNumber pageNumber).bind (row m)).any (fun x => !x.presence)) (by
      simp only [Option.any_eq_true, Option.bind_eq_some_iff, Bool.not_eq_true']
      constructor
      · rintro ⟨hl, x, ⟨v, hv, hx⟩, hp⟩
        exact ⟨v, x, hl, hv, hx, hp⟩
      · rintro ⟨v, x, h⟩
        exact ⟨h.alive, x, ⟨v, h.page, h.found⟩, h.absent⟩)

/-- The two halves of a served fault. -/
structure Served (cfg : MemoryConfig) (m m' : Memory) (live : Live) (pid : ℤ) (v : PageRef)
    (x : PageTableRow) (f : ℤ) (m₂ : Memory) (c c₂ : ClockStruct) : Prop where
  clock : m.clockStructures pid = some c
  target : LiveRow m live pid v x
  absent : x.presence = false
  room : Room cfg m live pid c m₂ c₂ f
  loaded : Loaded cfg m₂ m' pid v x f c₂

theorem requested_segment {segments : List Segment} {sn pn : ℤ} {v : PageRef}
    (h : requestedPage segments sn pn = some v) : ∃ segment, listGet segments sn = some segment ∧
      segment.indexPage = v.table ∧ pn = v.page := by
  simp only [requestedPage, Option.bind_eq_bind, Option.bind_eq_some_iff] at h
  obtain ⟨segment, hs, h⟩ := h
  split at h
  · obtain rfl := Option.some.inj h
    exact ⟨segment, hs, by simp; omega, by simp; omega⟩
  · simp at h

theorem requested_owned {live : Live} {pid : ℤ} {segments : List Segment} {sn pn : ℤ}
    {v : PageRef} (hl : live pid = some segments) (h : requestedPage segments sn pn = some v) :
    Owns live pid v.table := by
  obtain ⟨segment, hs, hi, _⟩ := requested_segment h
  exact ⟨_, hl, hi ▸ List.mem_map_of_mem (list_get_mem hs)⟩

/-- A fault on a non-present page of a live process is served. -/
theorem page_fault_served {cfg : MemoryConfig} (valid : ValidConfig cfg) {m : Memory} {live : Live}
    (ha : Accounts cfg m live) {pcb : Pcb} {sn pn : ℤ} {v : PageRef} {x : PageTableRow}
    (h : Requestable m live pcb sn pn v x)
    (hfree : ∀ n, framesInMemoryOfProcess m pcb.processId = some n → n < cfg.marcosPorProceso →
      ∃ f, InFrames cfg f ∧ ¬Marked m.bitmapMemory f) :
    ∃ m' f m₂ c c₂, requestPageFault cfg m pcb sn pn = some (m', some (.responsePageFault pcb)) ∧
      chooseFrame cfg m pcb.processId = some (m₂, f) ∧ Served cfg m m' live pcb.processId v x f m₂ c c₂ := by
  obtain ⟨segment, hs, hi, hpn⟩ := requested_segment h.page
  have hv : LiveRow m live pcb.processId v x := ⟨requested_owned h.alive h.page, h.found⟩
  obtain ⟨c, hc, hm⟩ := ha.clocks _ _ h.alive
  obtain ⟨m₂, c₂, f, hch, hroom⟩ := choose_frame_room valid.algorithm ha.holdings hc hm hv h.absent
    fun hlt => hfree _ (frames_of_clock hc) hlt
  have hold₂ := room_holdings ha.holdings hroom
  have hv₂ := (room_target hm h.absent h.found hroom).trans h.found
  have hsl := marked_range (hold₂.slotMarked _ v x ⟨hv.1, hv₂⟩)
  obtain ⟨m', hm', hload⟩ := load_page_loads cfg m₂ pcb.processId v x f c₂ hv₂
    ⟨hsl.1, hold₂.swapLength ▸ hsl.2⟩ (room_frame ha.holdings hroom).1 hold₂.memoryLength
    (by simp [room_clocks hc hroom])
  refine ⟨m', f, m₂, c, c₂, ?_, hch, hc, hv, h.absent, hroom, hload⟩
  have hlt := owns_lt ha.holdings hv.1
  simp [requestPageFault, hs, hi, table_lookup ha.holdings.ids v.table hlt, hpn, hch, hm']

section Serving
variable {cfg : MemoryConfig} {m m' m₂ : Memory} {live : Live} {pid : ℤ} {v : PageRef}
  {x : PageTableRow} {f : ℤ} {c c₂ : ClockStruct}

/-- Serving a fault leaves the rows of other processes alone. -/
theorem served_other_row (ha : Accounts cfg m live)
    (h : Served cfg m m' live pid v x f m₂ c c₂) {q : ℤ} {r : PageRef} (hq : q ≠ pid)
    (ho : Owns live q r.table) : row m' r = row m r := by
  have hne : r ≠ v := by
    rintro rfl
    exact hq (ha.holdings.disjoint q pid r.table ho h.target.1)
  rw [h.loaded.others r hne, room_row h.room r]
  obtain ⟨segments, hl, _⟩ := h.target.1
  obtain ⟨c', hc', hm⟩ := ha.clocks pid segments hl
  obtain rfl := Option.some.inj (h.clock.symm.trans hc')
  rintro k hk rfl
  obtain ⟨y, hy, _⟩ := hm.rows k hk (by simp)
  exact hq (ha.holdings.disjoint q pid _ ho hy.1)

theorem served_accounts (ha : Accounts cfg m live)
    (h : Served cfg m m' live pid v x f m₂ c c₂) : Accounts cfg m' live := by
  obtain ⟨hin, hun⟩ := room_frame ha.holdings h.room
  have hold₂ := room_holdings ha.holdings h.room
  have hv₂ : LiveRow m₂ live pid v x := ⟨h.target.1, h.loaded.before⟩
  refine ⟨loaded_holdings hold₂ hv₂ h.absent hun h.loaded, fun q segments hl => ?_⟩
  obtain ⟨cq, hcq, hmq⟩ := ha.clocks q segments hl
  by_cases hq : q = pid
  · subst hq
    obtain rfl := Option.some.inj (h.clock.symm.trans hcq)
    obtain ⟨hframes, hroom⟩ := room_frames h.room
    refine ⟨_, by rw [h.loaded.clocks, Function.update_self], ?_⟩
    exact loaded_mirror (room_mirror ha.holdings hmq h.room) hv₂ h.absent (hframes ▸ hroom) h.loaded
  · refine ⟨cq, ?_, mirror_other (fun r y => ?_) hmq⟩
    · rw [h.loaded.clocks, Function.update_of_ne hq, room_clocks h.clock h.room,
        Function.update_of_ne hq, hcq]
    · refine and_congr_right fun ho => ?_
      rw [served_other_row ha h hq ho]

end Serving

end Geck.MemoryFaults
