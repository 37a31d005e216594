import Geck.MemoryHandlers

/-!
# What a page replacement does

Both clock algorithms clear use bits of the process's own rows, then evict one
of its clock rows. This is proved once for each loop, together with the fact
that the loop ends: the use bits still set bound the visits of the simple
clock, and the enhanced clock ends within four turns.
-/

set_option autoImplicit false

namespace Geck.MemoryReplacement
open Geck.BlockStore Geck.SharedPcb Geck.MemoryState Geck.MemoryPaging

def withoutUse (x : PageTableRow) : PageTableRow := { x with use := false }

def evictedRow (x : PageTableRow) : PageTableRow := { x with presence := false, modified := false }

/-- A frame and a slot that exist. -/
def InFrames (cfg : MemoryConfig) (f : ℤ) : Prop := 0 ≤ f ∧ f < ramPages cfg

def InSlots (cfg : MemoryConfig) (s : ℤ) : Prop := 0 ≤ s ∧ s < swapPages cfg

/-- `m'` is `m` with some use bits of the clock's pages cleared. -/
structure Touched (rows : List ClockRow) (m m' : Memory) : Prop where
  pages : ∀ r, row m' r = row m r ∨
    (∃ k ∈ rows, k.page = r) ∧ row m' r = (row m r).map withoutUse
  shape : tableShape m' = tableShape m
  ram : m'.principalMemory = m.principalMemory
  swap : m'.swapFile = m.swapFile
  memoryBits : m'.bitmapMemory = m.bitmapMemory
  swapBits : m'.bitmapSwap = m.bitmapSwap
  clocks : m'.clockStructures = m.clockStructures
  counter : m'.pageTablesCounter = m.pageTablesCounter

/-- `m'` is `m` after `replace_by_clock` on the page `v`, whose row was `x`. -/
structure Evicted (cfg : MemoryConfig) (m m' : Memory) (v : PageRef) (x : PageTableRow) : Prop where
  victim : row m v = some x
  gone : row m' v = some (evictedRow x)
  others : ∀ r, r ≠ v → row m' r = row m r
  shape : tableShape m' = tableShape m
  ram : m'.principalMemory = m.principalMemory
  swap : m'.swapFile = if x.modified then
    putBlock cfg.tamPagina m.swapFile x.swapPosition.toNat
      (block cfg.tamPagina m.principalMemory x.frameNumber.toNat) else m.swapFile
  memoryBits : ∀ f, Marked m'.bitmapMemory f ↔ f ≠ x.frameNumber ∧ Marked m.bitmapMemory f
  memoryLength : m'.bitmapMemory.length = m.bitmapMemory.length
  swapBits : m'.bitmapSwap = m.bitmapSwap
  clocks : m'.clockStructures = m.clockStructures
  counter : m'.pageTablesCounter = m.pageTablesCounter

/-- Every page the clock points at exists and lies in a real frame and slot. -/
def Evictable (cfg : MemoryConfig) (m : Memory) (rows : List ClockRow) : Prop :=
  ∀ k ∈ rows, ∃ x, row m k.page = some x ∧ InFrames cfg x.frameNumber ∧ InSlots cfg x.swapPosition

theorem touched_refl (rows : List ClockRow) (m : Memory) : Touched rows m m :=
  ⟨fun _ => Or.inl rfl, rfl, rfl, rfl, rfl, rfl, rfl, rfl⟩

theorem clear_use_touched {rows : List ClockRow} {m m' : Memory} {k : ClockRow} (hk : k ∈ rows)
    (h : Touched rows m m') : Touched rows m (clearUse m' k.page) := by
  refine ⟨fun r => ?_, ?_, h.ram, h.swap, h.memoryBits, h.swapBits, h.clocks, h.counter⟩
  · rw [clearUse, row_modify]
    split
    · rename_i hr
      right
      refine ⟨⟨k, hk, hr.symm⟩, ?_⟩
      obtain hp | ⟨_, hp⟩ := h.pages r <;> rw [hp]
      · rfl
      · cases row m r <;> rfl
    · exact h.pages r
  · exact (shape_modify ..).trans h.shape

theorem touched_row {rows : List ClockRow} {m m' : Memory} (h : Touched rows m m') {r : PageRef}
    {x : PageTableRow} (hx : row m r = some x) :
    ∃ y, row m' r = some y ∧ y.frameNumber = x.frameNumber ∧ y.swapPosition = x.swapPosition ∧
      y.presence = x.presence ∧ y.modified = x.modified ∧ (y.use = true → x.use = true) := by
  obtain hp | ⟨_, hp⟩ := h.pages r
  · exact ⟨x, hp.trans hx, rfl, rfl, rfl, rfl, id⟩
  · exact ⟨withoutUse x, by rw [hp, hx]; rfl, rfl, rfl, rfl, rfl, by simp [withoutUse]⟩

theorem touched_evictable {cfg : MemoryConfig} {rows : List ClockRow} {m m' : Memory}
    (h : Touched rows m m') (he : Evictable cfg m rows) : Evictable cfg m' rows := by
  intro k hk
  obtain ⟨x, hx, hf, hs⟩ := he k hk
  obtain ⟨y, hy, hyf, hys, _⟩ := touched_row h hx
  exact ⟨y, hy, hyf ▸ hf, hys ▸ hs⟩

theorem modify_modify_row (m : Memory) (v : PageRef) (f g : PageTableRow → PageTableRow)
    (r : PageRef) : row (modifyRow (modifyRow m v f) v g) r =
      if r = v then (row m r).map (g ∘ f) else row m r := by
  rw [row_modify, row_modify]
  split
  · cases row m r <;> rfl
  · rfl

theorem replace_by_clock_evicts (cfg : MemoryConfig) (m : Memory) (v : PageRef) (x : PageTableRow)
    (hx : row m v = some x) (hf : InFrames cfg x.frameNumber) (hs : InSlots cfg x.swapPosition)
    (hlen : m.bitmapMemory.length = ramPages cfg) :
    ∃ m', replaceByClock cfg m v = some m' ∧ Evicted cfg m m' v x := by
  have hbit : x.frameNumber < m.bitmapMemory.length := by rw [hlen]; exact hf.2
  obtain ⟨bits, hb⟩ := write_bit_total m.bitmapMemory x.frameNumber false hf.1 hbit
  have hm := write_bit_marked hb
  cases hmod : x.modified with
  | false =>
    refine ⟨{ modifyRow m v (fun r => { r with presence := false }) with bitmapMemory := bits },
      by simp [replaceByClock, hx, hmod, hb], ?_⟩
    constructor <;> try rfl
    · exact hx
    · change row (modifyRow m v _) v = _
      simp [row_modify, hx, evictedRow, ← hmod]
    · intro r hr
      change row (modifyRow m v _) r = _
      simp [row_modify, hr]
    · exact shape_modify ..
    · simp [hmod]
    · intro f
      simp [hm f]
    · exact write_bit_length hb
  | true =>
    refine ⟨{ modifyRow (modifyRow m v fun r => { r with modified := false }) v
        (fun r => { r with presence := false }) with
        bitmapMemory := bits
        swapFile := putBlock cfg.tamPagina m.swapFile x.swapPosition.toNat
          (block cfg.tamPagina m.principalMemory x.frameNumber.toNat) },
      by simp [replaceByClock, hx, hmod, readFrame, hf.1, hf.2, writePageSwap, hs.1, hs.2, hb,
        modifyRow], ?_⟩
    constructor <;> try rfl
    · exact hx
    · change row (modifyRow (modifyRow m v _) v _) v = _
      simp [modify_modify_row, hx, evictedRow]
    · intro r hr
      change row (modifyRow (modifyRow m v _) v _) r = _
      simp [modify_modify_row, hr]
    · exact (shape_modify (modifyRow m v _) v _).trans (shape_modify ..)
    · simp [hmod]
    · intro f
      simp [hm f]
    · exact write_bit_length hb

/-- What a clock loop started in `m` gives: it cleared use bits of the clock's
pages, evicted one of them, and stores a pointer inside the clock. -/
def Chosen (cfg : MemoryConfig) (rows : List ClockRow) (m : Memory)
    (result : Option (Memory × ℕ × ℤ)) : Prop :=
  ∃ m₁ m' k x p, Touched rows m m₁ ∧ k ∈ rows ∧ x.use = false ∧ Evicted cfg m₁ m' k.page x ∧
    p < rows.length ∧ result = some (m', p, k.frameNumberInMemory)

def used (m : Memory) (k : ClockRow) : Bool := (row m k.page).any PageTableRow.use

theorem clear_use_used (m : Memory) (k c : ClockRow) :
    used (clearUse m k.page) c = (used m c && !decide (c.page = k.page)) := by
  unfold used clearUse
  rw [row_modify]
  by_cases hc : c.page = k.page
  · cases h : row m c.page <;> simp [hc]
  · simp [hc]

theorem clear_use_lowers (m : Memory) (rows : List ClockRow) (k : ClockRow) (hk : k ∈ rows)
    (hu : used m k = true) :
    rows.countP (used (clearUse m k.page)) < rows.countP (used m) := by
  induction rows with
  | nil => simp at hk
  | cons c rows ih =>
    have hle : rows.countP (used (clearUse m k.page)) ≤ rows.countP (used m) :=
      List.countP_mono_left fun c _ h => by
        rw [clear_use_used, Bool.and_eq_true] at h
        exact h.1
    rw [List.countP_cons, List.countP_cons]
    obtain rfl | hrest := List.mem_cons.mp hk
    · simp [clear_use_used, hu]
      omega
    · have := ih hrest
      rw [clear_use_used]
      cases used m c <;> simp
      · exact this
      · split <;> omega

theorem next_pointer_lt (cfg : MemoryConfig) (p : ℕ) (hp : p < cfg.marcosPorProceso) :
    moveToNextPointer cfg p < cfg.marcosPorProceso := by
  unfold moveToNextPointer
  split <;> omega

theorem uint16_le (n : ℕ) : uint16 n ≤ n := Nat.mod_le n _

/-- The use bits still set bound the visits left. -/
theorem simple_clock_loop_chosen (cfg : MemoryConfig) (rows : List ClockRow)
    (hn : rows.length = cfg.marcosPorProceso) (m₀ : Memory) (he : Evictable cfg m₀ rows)
    (hlen : m₀.bitmapMemory.length = ramPages cfg) (fuel : ℕ) (m : Memory) (p : ℕ)
    (ht : Touched rows m₀ m) (hp : p < cfg.marcosPorProceso)
    (hfuel : rows.countP (used m) < fuel) :
    Chosen cfg rows m₀ (simpleClockLoop cfg rows fuel m p) := by
  induction fuel generalizing m p with
  | zero => omega
  | succ fuel ih =>
    have hp' : p < rows.length := by omega
    have hk : rows[p] ∈ rows := List.getElem_mem hp'
    have hnext : uint16 (moveToNextPointer cfg p) < cfg.marcosPorProceso :=
      (uint16_le _).trans_lt (next_pointer_lt cfg p hp)
    obtain ⟨x, hx, hf, hs⟩ := touched_evictable ht he rows[p] hk
    simp only [simpleClockLoop, List.getElem?_eq_getElem hp', hx, Option.bind_eq_bind,
      Option.bind_some]
    cases hu : x.use with
    | false =>
      obtain ⟨m', hm', hev⟩ := replace_by_clock_evicts cfg m _ x hx hf hs (ht.memoryBits ▸ hlen)
      refine ⟨m, m', rows[p], x, _, ht, hk, hu, hev, hn ▸ hnext, ?_⟩
      simp [hm']
    | true =>
      have hlow := clear_use_lowers m rows rows[p] hk (by simp [used, hx, hu])
      simpa using ih _ _ (clear_use_touched hk ht) hnext (by omega)

/-- The visits left in a pass that ends where it started. -/
def visitsLeft (n start p : ℕ) : ℕ := if start ≤ p then n-p+start else start-p

/-- The positions such a pass has already visited. -/
def Visited (start p i : ℕ) : Prop := if start ≤ p then start ≤ i ∧ i < p else start ≤ i ∨ i < p

theorem pass_ends {cfg : MemoryConfig} {start p : ℕ} (h : moveToNextPointer cfg p = start) (i : ℕ) (hi : i < cfg.marcosPorProceso) :
    i = p ∨ Visited start p i := by
  unfold moveToNextPointer at h
  unfold Visited
  split at h <;> split <;> omega

theorem pass_continues {cfg : MemoryConfig} {start p : ℕ} (hs : start < cfg.marcosPorProceso)
    (hp : p < cfg.marcosPorProceso) (h : moveToNextPointer cfg p ≠ start) :
    visitsLeft cfg.marcosPorProceso start (moveToNextPointer cfg p)+1 =
      visitsLeft cfg.marcosPorProceso start p ∧
    ∀ i < cfg.marcosPorProceso, Visited start (moveToNextPointer cfg p) i →
      i = p ∨ Visited start p i := by
  unfold moveToNextPointer at h ⊢
  unfold visitsLeft Visited
  split at h <;> (split_ifs <;> refine ⟨by omega, fun i hi => by omega⟩)

theorem visits_left_pos {n : ℕ} (start : ℕ) {p : ℕ} (hp : p < n) : 1 ≤ visitsLeft n start p := by
  unfold visitsLeft
  split <;> omega

section Enhanced
variable (cfg : MemoryConfig) (rows : List ClockRow) (hn : rows.length = cfg.marcosPorProceso)
  (m₀ : Memory) (he : Evictable cfg m₀ rows) (hlen : m₀.bitmapMemory.length = ramPages cfg)
  (start : ℕ) (hstart : start < cfg.marcosPorProceso)
include hn he hlen

/-- One visit of either pass: the row is the victim, or the loop goes on. -/
theorem modified_clock_visit (fuel : ℕ) (pass : ClockPass) (m : Memory) (p : ℕ)
    (ht : Touched rows m₀ m) (hp : p < cfg.marcosPorProceso) :
    ∃ k x, rows[p]? = some k ∧ k ∈ rows ∧ row m k.page = some x ∧
      ((x.use = false ∧ x.modified = decide (pass = .second) ∧
        Chosen cfg rows m₀ (modifiedClockLoop cfg rows start (fuel+1) pass m p)) ∨
      (¬(x.use = false ∧ x.modified = decide (pass = .second)) ∧
        modifiedClockLoop cfg rows start (fuel+1) pass m p =
          match pass with
          | .first => modifiedClockLoop cfg rows start fuel
              (if moveToNextPointer cfg p = start then .second else .first) m
              (moveToNextPointer cfg p)
          | .second => modifiedClockLoop cfg rows start fuel
              (if moveToNextPointer cfg p = start then .first else .second)
              (clearUse m k.page) (moveToNextPointer cfg p))) := by
  have hp' : p < rows.length := by omega
  have hk : rows[p] ∈ rows := List.getElem_mem hp'
  obtain ⟨x, hx, hf, hs⟩ := touched_evictable ht he rows[p] hk
  refine ⟨rows[p], x, List.getElem?_eq_getElem hp', hk, hx, ?_⟩
  by_cases hv : x.use = false ∧ x.modified = decide (pass = .second)
  · left
    obtain ⟨m', hm', hev⟩ := replace_by_clock_evicts cfg m _ x hx hf hs (ht.memoryBits ▸ hlen)
    refine ⟨hv.1, hv.2, m, m', rows[p], x, uint16 (moveToNextPointer cfg p), ht, hk, hv.1, hev,
      hn ▸ (uint16_le _).trans_lt (next_pointer_lt cfg p hp), ?_⟩
    simp [modifiedClockLoop, List.getElem?_eq_getElem hp', hx, hv.1, hv.2, hm']
  · right
    refine ⟨hv, ?_⟩
    simp only [modifiedClockLoop, List.getElem?_eq_getElem hp', hx, Option.bind_eq_bind,
      Option.bind_some]
    refine (if_neg hv).trans ?_
    cases pass <;> rfl

include hstart

/-- In a first pass over clear use bits every row passed over is modified, so
the following second pass stops at its first row. -/
theorem cleared_pass_chosen (fuel : ℕ) (m : Memory) (p : ℕ) (ht : Touched rows m₀ m)
    (hp : p < cfg.marcosPorProceso) (hu : ∀ k ∈ rows, used m k = false)
    (hmod : ∀ i k x, Visited start p i → rows[i]? = some k → row m k.page = some x →
      x.modified = true)
    (hfuel : visitsLeft cfg.marcosPorProceso start p < fuel) :
    Chosen cfg rows m₀ (modifiedClockLoop cfg rows start fuel .first m p) := by
  induction fuel generalizing p with
  | zero => omega
  | succ fuel ih =>
    have hpos := visits_left_pos start hp
    obtain ⟨k, x, hk, hmem, hx, hc | ⟨hnot, hgo⟩⟩ :=
      modified_clock_visit cfg rows hn m₀ he hlen start fuel .first m p ht hp
    · exact hc.2.2
    have huse : x.use = false := by simpa [used, hx] using hu k hmem
    have hxm : x.modified = true := by simpa [huse] using hnot
    rw [hgo]
    simp only
    by_cases hend : moveToNextPointer cfg p = start
    · -- every row is now known to be modified and unused
      obtain ⟨fuel, rfl⟩ : ∃ n, fuel = n+1 := ⟨fuel-1, by omega⟩
      rw [if_pos hend]
      obtain ⟨k', x', hk', hmem', hx', hc | ⟨hnot', _⟩⟩ := modified_clock_visit cfg rows hn m₀ he
        hlen start fuel .second m (moveToNextPointer cfg p) ht (next_pointer_lt cfg p hp)
      · exact hc.2.2
      · have huse' : x'.use = false := by simpa [used, hx'] using hu k' hmem'
        have hxm' : x'.modified = true := by
          obtain hi | hi := pass_ends hend (moveToNextPointer cfg p) (next_pointer_lt cfg p hp)
          · rw [hi, hk] at hk'
            obtain rfl := Option.some.inj hk'
            rw [hx] at hx'
            obtain rfl := Option.some.inj hx'
            exact hxm
          · exact hmod _ k' x' hi hk' hx'
        simp [huse', hxm'] at hnot'
    · obtain ⟨hleft, hvis⟩ := pass_continues hstart hp hend
      rw [if_neg hend]
      refine ih _ (next_pointer_lt cfg p hp) (fun i k' x' hi hk' hx' => ?_) (by omega)
      obtain rfl | hi := hvis i (hn ▸ (List.getElem?_eq_some_iff.mp hk').1) hi
      · rw [hk] at hk'
        obtain rfl := Option.some.inj hk'
        rw [hx] at hx'
        obtain rfl := Option.some.inj hx'
        exact hxm
      · exact hmod i k' x' hi hk' hx'

/-- A second pass leaves every use bit clear when it finds no victim. -/
theorem second_pass_chosen (fuel : ℕ) (m : Memory) (p : ℕ) (ht : Touched rows m₀ m)
    (hp : p < cfg.marcosPorProceso)
    (hu : ∀ i k, Visited start p i → rows[i]? = some k → used m k = false)
    (hfuel : visitsLeft cfg.marcosPorProceso start p+cfg.marcosPorProceso < fuel) :
    Chosen cfg rows m₀ (modifiedClockLoop cfg rows start fuel .second m p) := by
  induction fuel generalizing m p with
  | zero => omega
  | succ fuel ih =>
    have hpos := visits_left_pos start hp
    obtain ⟨k, x, hk, hmem, hx, hc | ⟨hnot, hgo⟩⟩ :=
      modified_clock_visit cfg rows hn m₀ he hlen start fuel .second m p ht hp
    · exact hc.2.2
    rw [hgo]
    simp only
    have ht' := clear_use_touched hmem ht
    have hu' : ∀ i c, i = p ∨ Visited start p i → rows[i]? = some c →
        used (clearUse m k.page) c = false := by
      intro i c hi hc
      rw [clear_use_used]
      obtain rfl | hi := hi
      · rw [hk] at hc
        obtain rfl := Option.some.inj hc
        simp
      · simp [hu i c hi hc]
    by_cases hend : moveToNextPointer cfg p = start
    · rw [if_pos hend]
      have hall : ∀ c ∈ rows, used (clearUse m k.page) c = false := by
        intro c hc
        obtain ⟨i, hi, rfl⟩ := List.mem_iff_getElem.mp hc
        exact hu' i rows[i] (pass_ends hend i (hn ▸ hi)) (List.getElem?_eq_getElem hi)
      rw [hend]
      refine cleared_pass_chosen cfg rows hn m₀ he hlen start hstart fuel _ start ht' hstart hall
        (fun i c y hi => ?_) ?_
      · simp [Visited] at hi
        omega
      · simp only [visitsLeft, le_refl, if_true]
        omega
    · obtain ⟨hleft, hvis⟩ := pass_continues hstart hp hend
      rw [if_neg hend]
      exact ih _ _ ht' (next_pointer_lt cfg p hp) (fun i c hi hc =>
        hu' i c (hvis i (hn ▸ (List.getElem?_eq_some_iff.mp hc).1) hi) hc) (by omega)

theorem first_pass_chosen (fuel : ℕ) (m : Memory) (p : ℕ) (ht : Touched rows m₀ m)
    (hp : p < cfg.marcosPorProceso)
    (hfuel : visitsLeft cfg.marcosPorProceso start p+2*cfg.marcosPorProceso < fuel) :
    Chosen cfg rows m₀ (modifiedClockLoop cfg rows start fuel .first m p) := by
  induction fuel generalizing p with
  | zero => omega
  | succ fuel ih =>
    have hpos := visits_left_pos start hp
    obtain ⟨k, x, hk, hmem, hx, hc | ⟨hnot, hgo⟩⟩ :=
      modified_clock_visit cfg rows hn m₀ he hlen start fuel .first m p ht hp
    · exact hc.2.2
    rw [hgo]
    simp only
    by_cases hend : moveToNextPointer cfg p = start
    · rw [if_pos hend, hend]
      refine second_pass_chosen cfg rows hn m₀ he hlen start hstart fuel m start ht hstart
        (fun i c hi => ?_) ?_
      · simp [Visited] at hi
        omega
      · simp only [visitsLeft, le_refl, if_true]
        omega
    · rw [if_neg hend]
      have := (pass_continues hstart hp hend).1
      exact ih _ (next_pointer_lt cfg p hp) (by omega)

end Enhanced

/-- Either algorithm, on a full clock, evicts one page of that clock and only
moves that clock's pointer. -/
theorem replacement_chosen (cfg : MemoryConfig) (m : Memory) (pid : ℤ) (c : ClockStruct)
    (halg : cfg.algoritmoReemplazo ≠ .other) (hc : m.clockStructures pid = some c)
    (hn : c.framesInMemory.length = cfg.marcosPorProceso) (hp : c.pointer < cfg.marcosPorProceso)
    (he : Evictable cfg m c.framesInMemory) (hlen : m.bitmapMemory.length = ramPages cfg) :
    ∃ m₁ m' k x p, Touched c.framesInMemory m m₁ ∧ k ∈ c.framesInMemory ∧ x.use = false ∧
      Evicted cfg m₁ m' k.page x ∧ p < cfg.marcosPorProceso ∧
      useReplacementAlgorithm cfg m pid =
        some (setStructClock m' pid { c with pointer := p }, k.frameNumberInMemory) := by
  have key : ∀ result, Chosen cfg c.framesInMemory m result →
      (∀ m' p f, result = some (m', p, f) → useReplacementAlgorithm cfg m pid =
        some (setStructClock m' pid { c with pointer := p }, f)) →
      ∃ m₁ m' k x p, Touched c.framesInMemory m m₁ ∧ k ∈ c.framesInMemory ∧ x.use = false ∧
        Evicted cfg m₁ m' k.page x ∧ p < cfg.marcosPorProceso ∧
        useReplacementAlgorithm cfg m pid =
          some (setStructClock m' pid { c with pointer := p }, k.frameNumberInMemory) := by
    rintro result ⟨m₁, m', k, x, p, ht, hk, hu, hev, hlt, hr⟩ hgo
    exact ⟨m₁, m', k, x, p, ht, hk, hu, hev, hn ▸ hlt, hgo _ _ _ hr⟩
  cases halgo : cfg.algoritmoReemplazo with
  | other => exact absurd halgo halg
  | clock =>
    refine key _ (simple_clock_loop_chosen cfg c.framesInMemory hn m he hlen
      (c.framesInMemory.length+1) m c.pointer (touched_refl _ m) hp ?_) ?_
    · exact Nat.lt_succ_of_le List.countP_le_length
    · intro m' p f hr
      simp [useReplacementAlgorithm, halgo, simpleClock, getStructClock, hc, hr]
  | clockM =>
    refine key _ (first_pass_chosen cfg c.framesInMemory hn m he hlen c.pointer hp
      (4*c.framesInMemory.length) m c.pointer (touched_refl _ m) hp ?_) ?_
    · simp only [visitsLeft, le_refl, if_true]
      omega
    · intro m' p f hr
      simp [useReplacementAlgorithm, halgo, modifiedClock, getStructClock, hc, hr]

end Geck.MemoryReplacement
