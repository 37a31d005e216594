import Geck.MemoryReplacement
import Geck.LabelledRuns

/-!
# Frames, swap slots and the pages of live processes

The bitmaps, the page rows and the clocks record one fact three times. The
invariant says that they agree on the pages of the live processes: which frame
and which slot each page holds, and which pages a clock points at. Rows of
deleted processes stay behind in the tables and are not constrained.
-/

set_option autoImplicit false

namespace Geck.MemoryAccounting
open Geck.BlockStore Geck.SharedPcb Geck.MemoryState Geck.MemoryPaging
open Geck.MemoryHandlers Geck.MemoryReplacement

/-- The segment tables memory answered to the processes that are still alive. -/
abbrev Live := ℤ → Option (List Segment)

def Owns (live : Live) (pid : ℤ) (t : ℕ) : Prop :=
  ∃ segments, live pid = some segments ∧ (t : ℤ) ∈ segments.map Segment.indexPage

def LiveRow (m : Memory) (live : Live) (pid : ℤ) (r : PageRef) (x : PageTableRow) : Prop :=
  Owns live pid r.table ∧ row m r = some x

structure Holdings (cfg : MemoryConfig) (m : Memory) (live : Live) : Prop where
  ids : ∀ (i : ℕ) t, m.allPageTables[i]? = some t → t.id = i
  counter : m.pageTablesCounter = m.allPageTables.length
  inRange : ∀ pid segments, live pid = some segments →
    ∀ i ∈ segments.map Segment.indexPage, 0 ≤ i ∧ i < m.allPageTables.length
  disjoint : ∀ p q t, Owns live p t → Owns live q t → p = q
  injective : ∀ pid segments, live pid = some segments →
    (segments.map Segment.indexPage).Nodup
  memoryLength : m.bitmapMemory.length = ramPages cfg
  swapLength : m.bitmapSwap.length = swapPages cfg
  frameMarked : ∀ p r x, LiveRow m live p r x → x.presence = true →
    Marked m.bitmapMemory x.frameNumber
  frameHeld : ∀ f, Marked m.bitmapMemory f →
    ∃ p r x, LiveRow m live p r x ∧ x.presence = true ∧ x.frameNumber = f
  frameUnique : ∀ p q r r' x y, LiveRow m live p r x → LiveRow m live q r' y →
    x.presence = true → y.presence = true → x.frameNumber = y.frameNumber → r = r'
  slotMarked : ∀ p r x, LiveRow m live p r x → Marked m.bitmapSwap x.swapPosition
  slotHeld : ∀ s, Marked m.bitmapSwap s → ∃ p r x, LiveRow m live p r x ∧ x.swapPosition = s
  slotUnique : ∀ p q r r' x y, LiveRow m live p r x → LiveRow m live q r' y →
    x.swapPosition = y.swapPosition → r = r'

/-- The clock of a process points at exactly its resident pages, but for a row
whose frame is the hole a replacement has just made. -/
structure Mirror (cfg : MemoryConfig) (m : Memory) (live : Live) (pid : ℤ) (c : ClockStruct)
    (hole : Option ℤ) : Prop where
  rows : ∀ k ∈ c.framesInMemory, hole ≠ some k.frameNumberInMemory →
    ∃ x, LiveRow m live pid k.page x ∧ x.presence = true ∧
      x.frameNumber = k.frameNumberInMemory ∧ x.swapPosition = k.frameNumberInSwap
  pages : ∀ r x, LiveRow m live pid r x → x.presence = true →
    ∃ k ∈ c.framesInMemory, k.page = r ∧ hole ≠ some k.frameNumberInMemory
  frames : (c.framesInMemory.map ClockRow.frameNumberInMemory).Nodup
  bound : c.framesInMemory.length ≤ cfg.marcosPorProceso
  pointer : c.pointer < cfg.marcosPorProceso
  still : c.framesInMemory.length < cfg.marcosPorProceso → c.pointer = 0

structure Accounts (cfg : MemoryConfig) (m : Memory) (live : Live) : Prop where
  holdings : Holdings cfg m live
  clocks : ∀ pid segments, live pid = some segments →
    ∃ c, m.clockStructures pid = some c ∧ Mirror cfg m live pid c none

/-- What the bitmaps and clocks record of a row. -/
def holding (x : PageTableRow) : ℤ × ℤ × Bool := (x.frameNumber, x.swapPosition, x.presence)

/-- Two states of the module that hold the same frames and slots. -/
structure SameHoldings (m m' : Memory) : Prop where
  rows : ∀ r, (row m' r).map holding = (row m r).map holding
  shape : tableShape m' = tableShape m
  memoryBits : m'.bitmapMemory = m.bitmapMemory
  swapBits : m'.bitmapSwap = m.bitmapSwap
  clocks : m'.clockStructures = m.clockStructures
  counter : m'.pageTablesCounter = m.pageTablesCounter

theorem same_holdings_trans {m m' m'' : Memory} (h : SameHoldings m m') (h' : SameHoldings m' m'') :
    SameHoldings m m'' :=
  ⟨fun r => (h'.rows r).trans (h.rows r), h'.shape.trans h.shape, h'.memoryBits.trans h.memoryBits,
    h'.swapBits.trans h.swapBits, h'.clocks.trans h.clocks, h'.counter.trans h.counter⟩

theorem touched_same_holdings {rows : List ClockRow} {m m' : Memory} (h : Touched rows m m') :
    SameHoldings m m' := by
  refine ⟨fun r => ?_, h.shape, h.memoryBits, h.swapBits, h.clocks, h.counter⟩
  obtain hp | ⟨_, hp⟩ := h.pages r <;> rw [hp]
  cases row m r <;> rfl

theorem same_holdings_row {m m' : Memory} (h : SameHoldings m m') {live : Live} {p : ℤ}
    {r : PageRef} {x' : PageTableRow} (hx : LiveRow m' live p r x') :
    ∃ x, LiveRow m live p r x ∧ holding x = holding x' := by
  have hr := h.rows r
  rw [hx.2] at hr
  cases hm : row m r with
  | none => simp [hm] at hr
  | some x =>
    rw [hm] at hr
    exact ⟨x, ⟨hx.1, hm⟩, (Option.some.inj hr).symm⟩

theorem same_holdings_symm {m m' : Memory} (h : SameHoldings m m') : SameHoldings m' m :=
  ⟨fun r => (h.rows r).symm, h.shape.symm, h.memoryBits.symm, h.swapBits.symm, h.clocks.symm,
    h.counter.symm⟩

theorem shape_table_ids {m m' : Memory} (h : tableShape m' = tableShape m)
    (hid : ∀ (i : ℕ) t, m.allPageTables[i]? = some t → t.id = i) :
    ∀ (i : ℕ) t, m'.allPageTables[i]? = some t → t.id = i := by
  intro i t ht
  have hi := congrArg (·[i]?) h
  simp only [tableShape, List.getElem?_map, ht, Option.map_some] at hi
  cases hm : m.allPageTables[i]? with
  | none => simp [hm] at hi
  | some u =>
    rw [hm] at hi
    simp only [Option.map_some, Option.some.injEq, Prod.mk.injEq] at hi
    rw [hi.1]
    exact hid i u hm

theorem shape_tables_length {m m' : Memory} (h : tableShape m' = tableShape m) :
    m'.allPageTables.length = m.allPageTables.length := by
  rw [← shape_length, ← shape_length, h]

theorem holdings_same {cfg : MemoryConfig} {m m' : Memory} {live : Live} (h : SameHoldings m m')
    (hold : Holdings cfg m live) : Holdings cfg m' live := by
  have back {p r x'} (hx : LiveRow m' live p r x') := same_holdings_row h hx
  have forth {p r x} (hx : LiveRow m live p r x) := same_holdings_row (same_holdings_symm h) hx
  have hlen := shape_tables_length h.shape
  refine ⟨shape_table_ids h.shape hold.ids, ?_, ?_, hold.disjoint, hold.injective, ?_, ?_,
    ?_, ?_, ?_, ?_, ?_, ?_⟩
  · rw [h.counter, hlen]
    exact hold.counter
  · rw [hlen]
    exact hold.inRange
  · rw [h.memoryBits]
    exact hold.memoryLength
  · rw [h.swapBits]
    exact hold.swapLength
  · intro p r x' hx' hp
    obtain ⟨x, hx, he⟩ := back hx'
    simp only [holding, Prod.mk.injEq] at he
    rw [h.memoryBits, ← he.1]
    exact hold.frameMarked p r x hx (he.2.2.trans hp)
  · intro f hf
    obtain ⟨p, r, x, hx, hp, hxf⟩ := hold.frameHeld f (h.memoryBits ▸ hf)
    obtain ⟨x', hx', he⟩ := forth hx
    simp only [holding, Prod.mk.injEq] at he
    exact ⟨p, r, x', hx', he.2.2.trans hp, he.1.trans hxf⟩
  · intro p q r r' x' y' hx' hy' hpx hpy hf
    obtain ⟨x, hx, hex⟩ := back hx'
    obtain ⟨y, hy, hey⟩ := back hy'
    simp only [holding, Prod.mk.injEq] at hex hey
    exact hold.frameUnique p q r r' x y hx hy (hex.2.2.trans hpx) (hey.2.2.trans hpy)
      (hex.1.trans (hf.trans hey.1.symm))
  · intro p r x' hx'
    obtain ⟨x, hx, he⟩ := back hx'
    simp only [holding, Prod.mk.injEq] at he
    rw [h.swapBits, ← he.2.1]
    exact hold.slotMarked p r x hx
  · intro s hs
    obtain ⟨p, r, x, hx, hxs⟩ := hold.slotHeld s (h.swapBits ▸ hs)
    obtain ⟨x', hx', he⟩ := forth hx
    simp only [holding, Prod.mk.injEq] at he
    exact ⟨p, r, x', hx', he.2.1.trans hxs⟩
  · intro p q r r' x' y' hx' hy' hs
    obtain ⟨x, hx, hex⟩ := back hx'
    obtain ⟨y, hy, hey⟩ := back hy'
    simp only [holding, Prod.mk.injEq] at hex hey
    exact hold.slotUnique p q r r' x y hx hy (hex.2.1.trans (hs.trans hey.2.1.symm))

theorem mirror_same {cfg : MemoryConfig} {m m' : Memory} {live : Live} {pid : ℤ} {c : ClockStruct}
    {hole : Option ℤ} (h : SameHoldings m m') (hm : Mirror cfg m live pid c hole) :
    Mirror cfg m' live pid c hole := by
  refine ⟨fun k hk hh => ?_, fun r x' hx' hp => ?_, hm.frames, hm.bound, hm.pointer, hm.still⟩
  · obtain ⟨x, hx, hp, hf, hs⟩ := hm.rows k hk hh
    obtain ⟨x', hx', he⟩ := same_holdings_row (same_holdings_symm h) hx
    simp only [holding, Prod.mk.injEq] at he
    exact ⟨x', hx', he.2.2.trans hp, he.1.trans hf, he.2.1.trans hs⟩
  · obtain ⟨x, hx, he⟩ := same_holdings_row h hx'
    simp only [holding, Prod.mk.injEq] at he
    exact hm.pages r x hx (he.2.2.trans hp)

theorem accounts_same {cfg : MemoryConfig} {m m' : Memory} {live : Live} (h : SameHoldings m m')
    (ha : Accounts cfg m live) : Accounts cfg m' live := by
  refine ⟨holdings_same h ha.holdings, fun pid segments hl => ?_⟩
  obtain ⟨c, hc, hm⟩ := ha.clocks pid segments hl
  exact ⟨c, h.clocks ▸ hc, mirror_same h hm⟩

theorem live_row_owner {cfg : MemoryConfig} {m : Memory} {live : Live} (h : Holdings cfg m live)
    {p q : ℤ} {r : PageRef} {x y : PageTableRow} (hx : LiveRow m live p r x)
    (hy : LiveRow m live q r y) : p = q ∧ x = y :=
  ⟨h.disjoint p q r.table hx.1 hy.1, Option.some.inj (hx.2.symm.trans hy.2)⟩

/-- One live row changes and the bitmap of main memory follows it. -/
theorem holdings_row_change {cfg : MemoryConfig} {m m' : Memory} {live : Live} {pid : ℤ}
    {v : PageRef} {x x' : PageTableRow} (hold : Holdings cfg m live)
    (hv : LiveRow m live pid v x) (hv' : row m' v = some x')
    (others : ∀ r, r ≠ v → row m' r = row m r) (shape : tableShape m' = tableShape m)
    (slot : x'.swapPosition = x.swapPosition) (swapBits : m'.bitmapSwap = m.bitmapSwap)
    (counter : m'.pageTablesCounter = m.pageTablesCounter)
    (memoryLength : m'.bitmapMemory.length = m.bitmapMemory.length)
    (bits : ∀ f, Marked m'.bitmapMemory f ↔ (x'.presence = true ∧ f = x'.frameNumber) ∨
      (Marked m.bitmapMemory f ∧ ¬(x.presence = true ∧ f = x.frameNumber)))
    (fresh : x'.presence = true → ¬(Marked m.bitmapMemory x'.frameNumber ∧
      ¬(x.presence = true ∧ x'.frameNumber = x.frameNumber))) : Holdings cfg m' live := by
  have back {q r y} (hy : LiveRow m' live q r y) :
      (r = v ∧ q = pid ∧ y = x') ∨ (r ≠ v ∧ LiveRow m live q r y) := by
    by_cases hr : r = v
    · subst hr
      exact Or.inl ⟨rfl, hold.disjoint q pid r.table hy.1 hv.1, Option.some.inj (hy.2.symm.trans hv')⟩
    · exact Or.inr ⟨hr, hy.1, (others r hr) ▸ hy.2⟩
  have forth {q r y} (hr : r ≠ v) (hy : LiveRow m live q r y) : LiveRow m' live q r y :=
    ⟨hy.1, (others r hr).trans hy.2⟩
  have hlen := shape_tables_length shape
  -- a resident page other than the changed one keeps a frame of its own
  have apart {q r y} (hr : r ≠ v) (hy : LiveRow m live q r y) (hp : y.presence = true) :
      ¬(x.presence = true ∧ y.frameNumber = x.frameNumber) := fun ⟨hx, hf⟩ =>
    hr (hold.frameUnique q pid r v y x hy hv hp hx hf)
  have kept {q r y} (hr : r ≠ v) (hy : LiveRow m live q r y) (hp : y.presence = true)
      (hx' : x'.presence = true) : y.frameNumber ≠ x'.frameNumber := fun hf =>
    fresh hx' ⟨hf ▸ hold.frameMarked q r y hy hp, hf ▸ apart hr hy hp⟩
  refine ⟨shape_table_ids shape hold.ids, ?_, ?_, hold.disjoint, hold.injective, ?_, ?_,
    ?_, ?_, ?_, ?_, ?_, ?_⟩
  · rw [counter, hlen]
    exact hold.counter
  · rw [hlen]
    exact hold.inRange
  · rw [memoryLength]
    exact hold.memoryLength
  · rw [swapBits]
    exact hold.swapLength
  · intro q r y hy hp
    rw [bits]
    obtain ⟨rfl, rfl, rfl⟩ | ⟨hr, hy⟩ := back hy
    · exact Or.inl ⟨hp, rfl⟩
    · exact Or.inr ⟨hold.frameMarked q r y hy hp, apart hr hy hp⟩
  · intro f hf
    obtain ⟨hp, rfl⟩ | ⟨hf, hne⟩ := (bits f).mp hf
    · exact ⟨pid, v, x', ⟨hv.1, hv'⟩, hp, rfl⟩
    · obtain ⟨q, r, y, hy, hp, rfl⟩ := hold.frameHeld f hf
      have hr : r ≠ v := by
        rintro rfl
        obtain ⟨_, rfl⟩ := live_row_owner hold hy hv
        exact hne ⟨hp, rfl⟩
      exact ⟨q, r, y, forth hr hy, hp, rfl⟩
  · intro p q r r' y z hy hz hpy hpz hf
    obtain ⟨rfl, _, rfl⟩ | ⟨hr, hy⟩ := back hy <;> obtain ⟨rfl, _, rfl⟩ | ⟨hr', hz⟩ := back hz
    · rfl
    · exact absurd hf.symm (kept hr' hz hpz hpy)
    · exact absurd hf (kept hr hy hpy hpz)
    · exact hold.frameUnique p q r r' y z hy hz hpy hpz hf
  · intro q r y hy
    rw [swapBits]
    obtain ⟨rfl, rfl, rfl⟩ | ⟨_, hy⟩ := back hy
    · exact slot ▸ hold.slotMarked _ r x hv
    · exact hold.slotMarked q r y hy
  · intro s hs
    obtain ⟨q, r, y, hy, rfl⟩ := hold.slotHeld s (swapBits ▸ hs)
    by_cases hr : r = v
    · subst hr
      obtain ⟨_, rfl⟩ := live_row_owner hold hy hv
      exact ⟨pid, r, x', ⟨hv.1, hv'⟩, slot⟩
    · exact ⟨q, r, y, forth hr hy, rfl⟩
  · intro p q r r' y z hy hz hs
    obtain ⟨rfl, _, rfl⟩ | ⟨hr, hy⟩ := back hy <;> obtain ⟨rfl, _, rfl⟩ | ⟨hr', hz⟩ := back hz
    · rfl
    · exact hold.slotUnique pid q r r' x z hv hz (slot.symm.trans hs)
    · exact hold.slotUnique p pid r r' y x hy hv (hs.trans slot)
    · exact hold.slotUnique p q r r' y z hy hz hs

end Geck.MemoryAccounting
