import Geck.MemoryReplacement
import Geck.CircularScan

/-!
# Which page the clocks choose

The hand of a full clock starts where the last replacement left it. The simple
clock takes the first page whose use bit is clear and clears the bits it passes.
The enhanced clock looks for a class of pages in each pass: the second pass
clears the use bits, so the third and the fourth find what was in use before.
-/

set_option autoImplicit false

namespace Geck.ClockChoice
open Geck.CircularScan Geck.BlockStore Geck.MemoryState Geck.MemoryPaging Geck.MemoryReplacement

def modifiedBit (m : Memory) (k : ClockRow) : Bool := (row m k.page).any PageTableRow.modified

/-- A page of its own for each frame a process can have. -/
structure FullClock (cfg : MemoryConfig) (m : Memory) (rows : List ClockRow) : Prop where
  length : rows.length = cfg.marcosPorProceso
  distinct : (rows.map ClockRow.page).Nodup
  pages : ∀ k ∈ rows, (row m k.page).isSome

/-- The rows the hand passes in `d` steps from `p`. -/
def passedRows (rows : List ClockRow) (p d : ℕ) : List ClockRow :=
  (passed rows.length p d).filterMap fun i => rows[i]?

def clearPages (m : Memory) (ks : List ClockRow) : Memory :=
  ks.foldl (fun m k => clearUse m k.page) m

section Bits
variable {m : Memory} {rows ks : List ClockRow}

theorem clear_pages_touched (h : ks ⊆ rows) {m₀ : Memory} (ht : Touched rows m₀ m) :
    Touched rows m₀ (clearPages m ks) := by
  induction ks generalizing m with
  | nil => exact ht
  | cons k ks ih =>
    exact ih (fun j hj => h (List.mem_cons_of_mem k hj)) (clear_use_touched (h (by simp)) ht)

theorem row_clear_pages (m : Memory) (ks : List ClockRow) (r : PageRef) :
    row (clearPages m ks) r =
      if ∃ k ∈ ks, k.page = r then (row m r).map withoutUse else row m r := by
  induction ks generalizing m with
  | nil => simp [clearPages]
  | cons k ks ih =>
    rw [clearPages, List.foldl_cons, ← clearPages, ih, clearUse, row_modify]
    by_cases hk : k.page = r
    · cases row m r <;> simp [hk, withoutUse]
    · have hr : r ≠ k.page := fun h => hk h.symm
      simp [hk, hr]

theorem used_clear_pages (m : Memory) (ks : List ClockRow) (j : ClockRow) :
    used (clearPages m ks) j = (used m j && !decide (∃ k ∈ ks, k.page = j.page)) := by
  unfold used
  rw [row_clear_pages]
  split <;> cases row m j.page <;> simp_all [withoutUse]

theorem modified_clear_pages (m : Memory) (ks : List ClockRow) (j : ClockRow) :
    modifiedBit (clearPages m ks) j = modifiedBit m j := by
  unfold modifiedBit
  rw [row_clear_pages]
  split <;> cases row m j.page <;> simp [withoutUse]

theorem clear_pages_append (m : Memory) (ks : List ClockRow) (k : ClockRow) :
    clearPages m (ks++[k]) = clearUse (clearPages m ks) k.page := by
  simp [clearPages]

theorem passed_rows_succ {p d : ℕ} {k : ClockRow} (hk : rows[after rows.length p d]? = some k) :
    passedRows rows p (d+1) = passedRows rows p d++[k] := by
  simp [passedRows, passed_succ, hk]

theorem mem_passed_rows {p d : ℕ} {k : ClockRow} :
    k ∈ passedRows rows p d ↔ ∃ e < d, rows[after rows.length p e]? = some k := by
  simp only [passedRows, List.mem_filterMap, mem_passed]
  constructor
  · rintro ⟨i, ⟨e, he, rfl⟩, hk⟩
    exact ⟨e, he, hk⟩
  · rintro ⟨e, he, hk⟩
    exact ⟨_, ⟨e, he, rfl⟩, hk⟩

theorem passed_rows_sub (rows : List ClockRow) (p d : ℕ) : passedRows rows p d ⊆ rows := by
  intro k hk
  obtain ⟨e, _, hk⟩ := mem_passed_rows.mp hk
  exact List.mem_of_getElem? hk

theorem mem_passed_rows_turn {p : ℕ} (hp : p < rows.length) {k : ClockRow} :
    k ∈ passedRows rows p rows.length ↔ k ∈ rows := by
  refine ⟨fun h => passed_rows_sub rows p _ h, fun h => ?_⟩
  obtain ⟨i, hi, rfl⟩ := List.mem_iff_getElem.mp h
  obtain ⟨e, he, hi'⟩ := after_reaches hp hi
  exact mem_passed_rows.mpr ⟨e, he, by simp [hi', hi]⟩

/-- With a page for each row, a page is the page of one row only. -/
theorem page_of_row (hd : (rows.map ClockRow.page).Nodup) {j k : ClockRow} (hj : j ∈ rows)
    (hk : k ∈ rows) (h : j.page = k.page) : j = k :=
  List.inj_on_of_nodup_map hd hj hk h

/-- The row the hand gets to is not one it has passed in this turn. -/
theorem not_passed (hd : (rows.map ClockRow.page).Nodup) {p d : ℕ} (hlt : d < rows.length)
    {k : ClockRow} (hk : rows[after rows.length p d]? = some k) : k ∉ passedRows rows p d := by
  intro hmem
  obtain ⟨e, he, hk'⟩ := mem_passed_rows.mp hmem
  have hnodup : rows.Nodup := List.Nodup.of_map _ hd
  have hplace := (List.getElem?_inj (List.getElem?_eq_some_iff.mp hk').1 hnodup).mp (hk'.trans hk.symm)
  have := after_injective (by omega) hlt hplace
  omega

theorem used_cleared (hd : (rows.map ClockRow.page).Nodup) (hks : ks ⊆ rows) {j : ClockRow}
    (hj : j ∈ rows) : used (clearPages m ks) j = (used m j && !decide (j ∈ ks)) := by
  have hiff : (∃ k ∈ ks, k.page = j.page) ↔ j ∈ ks := by
    constructor
    · rintro ⟨k, hk, hpage⟩
      rwa [← page_of_row hd (hks hk) hj hpage]
    · exact fun h => ⟨j, h, rfl⟩
  rw [used_clear_pages, decide_eq_decide.mpr hiff]

end Bits

section Replacement
variable {cfg : MemoryConfig} {m m' : Memory} {v r : PageRef}

theorem replace_by_clock_row (h : replaceByClock cfg m v = some m') :
    row m' r = if r = v then (row m r).map evictedRow else row m r := by
  have hgone : ∀ (saved : Memory) (frame : ℤ),
      ((writeBit (modifyRow saved v fun r => { r with presence := false }).bitmapMemory
        frame false).bind fun bitmap => some { modifyRow saved v fun r =>
          { r with presence := false } with bitmapMemory := bitmap }) = some m' →
      row m' r = row (modifyRow saved v fun r => { r with presence := false }) r := by
    intro saved frame h
    obtain ⟨bitmap, -, h⟩ := Option.bind_eq_some_iff.mp h
    obtain rfl := Option.some.inj h
    rfl
  simp only [replaceByClock, Option.bind_eq_bind, Option.bind_eq_some_iff] at h
  obtain ⟨x, hx, h⟩ := h
  split at h
  · simp only [Option.bind_eq_some_iff] at h
    obtain ⟨value, -, written, hwritten, saved, hsaved, h⟩ := h
    obtain rfl := Option.some.inj hsaved
    have hsame : row written r = row m r := by
      simp only [writePageSwap, Option.ite_none_right_eq_some, Option.some.injEq] at hwritten
      obtain ⟨-, rfl⟩ := hwritten
      rfl
    rw [hgone _ x.frameNumber (Option.bind_eq_some_iff.mpr h), modify_modify_row, hsame]
    rfl
  · next hmod =>
    have hmod : x.modified = false := by simpa using hmod
    rw [hgone m x.frameNumber h, row_modify]
    split
    · next hr =>
      rw [hr, hx]
      simp [evictedRow, hmod]
    · rfl

end Replacement

/-- What a replacement does that ends at the place `v` of the clock, at the row `k`, after it
cleared the use bits of the pages of `cleared`. -/
structure Replaced (cfg : MemoryConfig) (m : Memory) (pid : ℤ) (c : ClockStruct)
    (result : Option (Memory × ℤ)) (v : ℕ) (k : ClockRow) (cleared : List ClockRow) : Prop where
  place : c.framesInMemory[v]? = some k
  returned : result = (replaceByClock cfg (clearPages m cleared) k.page).map fun m' =>
    (setStructClock m' pid { c with pointer := (v+1)%cfg.marcosPorProceso },
      k.frameNumberInMemory)
  uses : ∀ m' frame, result = some (m', frame) →
    ∀ j ∈ c.framesInMemory, used m' j = (used m j && !decide (j ∈ cleared))
  modifieds : ∀ m' frame, result = some (m', frame) →
    ∀ j ∈ c.framesInMemory, modifiedBit m' j = (modifiedBit m j && !decide (j = k))
  others : ∀ m' frame, result = some (m', frame) →
    ∀ r, (∀ j ∈ c.framesInMemory, j.page ≠ r) → row m' r = row m r
  succeeds : m.bitmapMemory.length = ramPages cfg → ∀ x, row m k.page = some x →
    InFrames cfg x.frameNumber → InSlots cfg x.swapPosition → result.isSome

theorem replaced_of_returned {cfg : MemoryConfig} {m : Memory} {pid : ℤ} {c : ClockStruct}
    {result : Option (Memory × ℤ)} {v : ℕ} {k : ClockRow} {cleared : List ClockRow}
    (hfull : FullClock cfg m c.framesInMemory) (hk : c.framesInMemory[v]? = some k)
    (hcleared : cleared ⊆ c.framesInMemory)
    (h : result = (replaceByClock cfg (clearPages m cleared) k.page).map fun m' =>
      (setStructClock m' pid { c with pointer := (v+1)%cfg.marcosPorProceso },
        k.frameNumberInMemory)) : Replaced cfg m pid c result v k cleared := by
  have hmem : k ∈ c.framesInMemory := List.mem_of_getElem? hk
  have hrows : ∀ m' frame, result = some (m', frame) → ∀ r, row m' r =
      if r = k.page then (row (clearPages m cleared) r).map evictedRow
      else row (clearPages m cleared) r := by
    intro m' frame hr r
    rw [h, Option.map_eq_some_iff] at hr
    obtain ⟨m₁, hm₁, heq⟩ := hr
    obtain ⟨rfl, -⟩ := Prod.mk.inj heq
    show row m₁ r = _
    exact replace_by_clock_row hm₁
  refine ⟨hk, h, ?_, ?_, ?_, ?_⟩
  · intro m' frame hr j hj
    rw [← used_cleared hfull.distinct hcleared hj]
    unfold used
    rw [hrows m' frame hr]
    split
    · cases row (clearPages m cleared) j.page <;> rfl
    · rfl
  · intro m' frame hr j hj
    rw [← modified_clear_pages m cleared]
    unfold modifiedBit
    rw [hrows m' frame hr]
    by_cases hpage : j.page = k.page
    · obtain rfl := page_of_row hfull.distinct hj hmem hpage
      cases row (clearPages m cleared) j.page <;> simp [evictedRow]
    · have hne : j ≠ k := fun he => hpage (by rw [he])
      simp [hpage, hne]
  · intro m' frame hr r hother
    have hne : r ≠ k.page := fun he => hother k hmem he.symm
    have hclear : ¬∃ j ∈ cleared, j.page = r := by
      rintro ⟨j, hj, hpage⟩
      exact hother j (hcleared hj) hpage
    rw [hrows m' frame hr, if_neg hne, row_clear_pages, if_neg hclear]
  · intro hlen x hx hframe hslot
    have ht := clear_pages_touched hcleared (touched_refl c.framesInMemory m)
    obtain ⟨y, hy, hyf, hys, -⟩ := touched_row ht hx
    obtain ⟨m₁, hm₁, -⟩ := replace_by_clock_evicts cfg (clearPages m cleared) k.page y hy
      (hyf ▸ hframe) (hys ▸ hslot) (by rw [ht.memoryBits, hlen])
    simp [h, hm₁]

section Hand
variable {cfg : MemoryConfig} {rows : List ClockRow} (hlen : rows.length = cfg.marcosPorProceso)
  {p d : ℕ} (hp : p < rows.length) (hd : d < rows.length)
include hlen hp hd

theorem next_place : moveToNextPointer cfg (after rows.length p d) = after rows.length p (d+1) := by
  rw [after_succ hp hd, moveToNextPointer, hlen]

theorem next_place_uint16 (hmax : cfg.marcosPorProceso ≤ 65535) :
    uint16 (moveToNextPointer cfg (after rows.length p d)) = after rows.length p (d+1) := by
  rw [next_place hlen hp hd]
  have hlt : after rows.length p (d+1) < rows.length := after_lt hp hd
  exact Nat.mod_eq_of_lt (by omega)

theorem next_place_mod :
    after rows.length p (d+1) = (after rows.length p d+1)%cfg.marcosPorProceso := by
  have hlt := after_lt hp hd.le
  rw [after_succ hp hd, ← hlen]
  split
  · next h => rw [h, Nat.mod_self]
  · rw [Nat.mod_eq_of_lt (by omega)]

end Hand

theorem row_at_place {rows : List ClockRow} {p d : ℕ} (hp : p < rows.length)
    (hd : d < rows.length) : ∃ k, rows[after rows.length p d]? = some k ∧ k ∈ rows := by
  have hlt := after_lt hp hd.le
  exact ⟨rows[after rows.length p d], List.getElem?_eq_getElem hlt, List.getElem_mem hlt⟩

section Simple
variable {cfg : MemoryConfig} {m : Memory} {rows : List ClockRow} (hfull : FullClock cfg m rows)
  {p : ℕ} (hp : p < rows.length)
include hfull

theorem page_at_row {k : ClockRow} (hk : k ∈ rows) (ks : List ClockRow) :
    ∃ x, row (clearPages m ks) k.page = some x := by
  obtain ⟨x, hx⟩ := Option.isSome_iff_exists.mp (hfull.pages k hk)
  rw [row_clear_pages, hx]
  split
  · exact ⟨withoutUse x, rfl⟩
  · exact ⟨x, rfl⟩

/-- A row the hand has not passed in this turn still has its bits. -/
theorem used_unpassed {d : ℕ} (hd : d < rows.length) {k : ClockRow}
    (hk : rows[after rows.length p d]? = some k) :
    used (clearPages m (passedRows rows p d)) k = used m k := by
  rw [used_cleared hfull.distinct (passed_rows_sub rows p d) (List.mem_of_getElem? hk)]
  simp [not_passed hfull.distinct hd hk]

variable (hmax : cfg.marcosPorProceso ≤ 65535)
include hp hmax

/-- One visit of `simple_clock`. -/
theorem simple_clock_visit (fuel : ℕ) {d : ℕ} (hd : d < rows.length) (ks : List ClockRow)
    {k : ClockRow} (hk : rows[after rows.length p d]? = some k) :
    simpleClockLoop cfg rows (fuel+1) (clearPages m ks) (after rows.length p d) =
      if used (clearPages m ks) k = false then
        (replaceByClock cfg (clearPages m ks) k.page).map fun m' =>
          (m', after rows.length p (d+1), k.frameNumberInMemory)
      else simpleClockLoop cfg rows fuel (clearPages m (ks++[k])) (after rows.length p (d+1)) := by
  obtain ⟨x, hx⟩ := page_at_row hfull (List.mem_of_getElem? hk) ks
  have hused : used (clearPages m ks) k = x.use := by simp [used, hx]
  simp only [simpleClockLoop, hk, hx, hused, Option.bind_eq_bind, Option.bind_some,
    next_place_uint16 hfull.length hp hd hmax, clear_pages_append]
  cases x.use with
  | true => rfl
  | false => simp [Option.map_eq_bind]

theorem simple_clock_passes (fuel d : ℕ) (hd : d ≤ rows.length)
    (hused : ∀ e < d, ∀ k, rows[after rows.length p e]? = some k → used m k = true) :
    simpleClockLoop cfg rows (fuel+d) m p =
      simpleClockLoop cfg rows fuel (clearPages m (passedRows rows p d))
        (after rows.length p d) := by
  induction d generalizing fuel with
  | zero => rw [after_zero hp]; rfl
  | succ d ih =>
    obtain ⟨k, hk, hmem⟩ := row_at_place hp (by omega : d < rows.length)
    have hset : used (clearPages m (passedRows rows p d)) k = true := by
      rw [used_unpassed hfull (by omega) hk, hused d (by omega) k hk]
    have hstep := ih (fuel+1) (by omega) fun e he => hused e (by omega)
    rw [show fuel+(d+1) = fuel+1+d by omega, hstep,
      simple_clock_visit hfull hp hmax fuel (by omega) _ hk, hset, passed_rows_succ hk]
    simp

/-- The loop ends with the visit after `t` passed rows, and not before. -/
theorem simple_clock_ends {t : ℕ} (ht : t ≤ rows.length) {k : ClockRow}
    (hk : rows[after rows.length p t]? = some k)
    (hpassed : ∀ e < t, ∀ j, rows[after rows.length p e]? = some j → used m j = true)
    (hclear : used (clearPages m (passedRows rows p t)) k = false) (fuel : ℕ) :
    simpleClockLoop cfg rows fuel m p =
      if t < fuel then
        (replaceByClock cfg (clearPages m (passedRows rows p t)) k.page).map fun m' =>
          (m', (after rows.length p t+1)%cfg.marcosPorProceso, k.frameNumberInMemory)
      else none := by
  split
  · next hlt =>
    obtain ⟨rest, rfl⟩ : ∃ rest, fuel = rest+1+t := ⟨fuel-t-1, by omega⟩
    rw [simple_clock_passes hfull hp hmax (rest+1) t ht hpassed]
    -- after a whole turn the hand is at its first place again
    obtain ⟨d, hd, hplace⟩ : ∃ d < rows.length, after rows.length p t = after rows.length p d := by
      obtain hlt | rfl := ht.lt_or_eq
      · exact ⟨t, hlt, rfl⟩
      · exact ⟨0, by omega, by rw [after_turn, after_zero hp]⟩
    rw [hplace] at hk ⊢
    rw [simple_clock_visit hfull hp hmax rest hd _ hk, if_pos hclear,
      next_place_mod hfull.length hp hd]
  · next hlt =>
    have hnone := simple_clock_passes hfull hp hmax 0 fuel (by omega) fun e he =>
      hpassed e (by omega)
    rw [Nat.zero_add] at hnone
    rw [hnone]
    rfl

end Simple

/-- What the simple clock does when it passes `t` rows and takes the row `k`. -/
structure SecondChance (cfg : MemoryConfig) (m : Memory) (pid : ℤ) (c : ClockStruct) (t : ℕ)
    (k : ClockRow) : Prop where
  victim : (t < cfg.marcosPorProceso ∧ used m k = false ∧ ∀ e < t, ∀ j,
      c.framesInMemory[after cfg.marcosPorProceso c.pointer e]? = some j → used m j = true) ∨
    (t = cfg.marcosPorProceso ∧ ∀ j ∈ c.framesInMemory, used m j = true)
  replaced : Replaced cfg m pid c (simpleClock cfg m pid)
    (after cfg.marcosPorProceso c.pointer t) k (passedRows c.framesInMemory c.pointer t)
  visits : ∀ fuel, simpleClockLoop cfg c.framesInMemory fuel m c.pointer =
    if t < fuel then
      (replaceByClock cfg (clearPages m (passedRows c.framesInMemory c.pointer t)) k.page).map
        fun m' => (m', (after cfg.marcosPorProceso c.pointer t+1)%cfg.marcosPorProceso,
          k.frameNumberInMemory)
    else none

/-- The simple clock gives every page in use a second chance, in at most one visit more than
the clock has rows. -/
theorem second_chance (cfg : MemoryConfig) (m : Memory) (pid : ℤ) (c : ClockStruct)
    (hclock : m.clockStructures pid = some c) (hfull : FullClock cfg m c.framesInMemory)
    (hmax : cfg.marcosPorProceso ≤ 65535) (hp : c.pointer < cfg.marcosPorProceso) :
    ∃ t k, t ≤ cfg.marcosPorProceso ∧ SecondChance cfg m pid c t k := by
  have hn := hfull.length
  have hp' : c.pointer < c.framesInMemory.length := by omega
  -- the rows passed before the victim, and the victim's use bit once they are passed
  have key : ∀ t k, t ≤ c.framesInMemory.length →
      c.framesInMemory[after c.framesInMemory.length c.pointer t]? = some k →
      (∀ e < t, ∀ j, c.framesInMemory[after c.framesInMemory.length c.pointer e]? = some j →
        used m j = true) →
      used (clearPages m (passedRows c.framesInMemory c.pointer t)) k = false →
      Replaced cfg m pid c (simpleClock cfg m pid)
        (after c.framesInMemory.length c.pointer t) k (passedRows c.framesInMemory c.pointer t) ∧
      ∀ fuel, simpleClockLoop cfg c.framesInMemory fuel m c.pointer =
        if t < fuel then
          (replaceByClock cfg (clearPages m (passedRows c.framesInMemory c.pointer t)) k.page).map
            fun m' => (m', (after c.framesInMemory.length c.pointer t+1)%cfg.marcosPorProceso,
              k.frameNumberInMemory)
        else none := by
    intro t k ht hk hpassed hclear
    have hends := simple_clock_ends hfull hp' hmax ht hk hpassed hclear
    have hreturned : simpleClock cfg m pid =
        (replaceByClock cfg (clearPages m (passedRows c.framesInMemory c.pointer t)) k.page).map
          fun m' => (setStructClock m' pid { c with pointer :=
            (after c.framesInMemory.length c.pointer t+1)%cfg.marcosPorProceso },
            k.frameNumberInMemory) := by
      simp only [simpleClock, getStructClock, hclock, Option.bind_eq_bind, Option.bind_some, hends]
      rw [if_pos (by omega)]
      cases replaceByClock cfg (clearPages m (passedRows c.framesInMemory c.pointer t)) k.page <;>
        rfl
    exact ⟨replaced_of_returned hfull hk (passed_rows_sub _ _ _) hreturned, hends⟩
  by_cases hall : ∀ j ∈ c.framesInMemory, used m j = true
  · obtain ⟨k, hk, hmem⟩ := row_at_place hp' (by omega : 0 < c.framesInMemory.length)
    rw [after_zero hp'] at hk
    have hclear : used (clearPages m (passedRows c.framesInMemory c.pointer
        c.framesInMemory.length)) k = false := by
      rw [used_cleared hfull.distinct (passed_rows_sub _ _ _) hmem]
      simp [(mem_passed_rows_turn hp').mpr hmem]
    obtain ⟨hreplaced, hvisits⟩ := key c.framesInMemory.length k le_rfl (by rwa [after_turn])
      (fun e _ j hj => hall j (List.mem_of_getElem? hj)) hclear
    rw [hn] at hreplaced hvisits
    exact ⟨cfg.marcosPorProceso, k, le_rfl, Or.inr ⟨rfl, hall⟩, hreplaced, hvisits⟩
  · push Not at hall
    obtain ⟨j, hj, hunused⟩ := hall
    obtain ⟨i, hi, rfl⟩ := List.mem_iff_getElem.mp hj
    obtain ⟨t, hfirst⟩ := first_exists hp'
      (fun i => ∃ k, c.framesInMemory[i]? = some k ∧ used m k = false)
      ⟨i, hi, _, List.getElem?_eq_getElem hi, by simpa using hunused⟩
    obtain ⟨k, hk, hunused⟩ := hfirst.holds
    have hpassed : ∀ e < t, ∀ j,
        c.framesInMemory[after c.framesInMemory.length c.pointer e]? = some j →
        used m j = true := by
      intro e he j hj
      by_contra hu
      exact hfirst.before e he ⟨j, hj, by simpa using hu⟩
    have hclear : used (clearPages m (passedRows c.framesInMemory c.pointer t)) k = false := by
      rw [used_unpassed hfull hfirst.inside hk, hunused]
    obtain ⟨hreplaced, hvisits⟩ := key t k hfirst.inside.le hk hpassed hclear
    have hinside := hfirst.inside
    rw [hn] at hreplaced hvisits hpassed hinside
    exact ⟨t, k, hinside.le, Or.inl ⟨hinside, hunused, hpassed⟩, hreplaced, hvisits⟩

/-- A clock of three frames whose pages have the given bits. -/
def ringConfig : MemoryConfig where
  tamMemoria := 32
  tamPagina := 4
  entradasPorTabla := 4
  algoritmoReemplazo := .clockM
  marcosPorProceso := 3
  tamanioSwap := 32

def ringRow (i : ℕ) (bits : Bool × Bool) : PageTableRow where
  frameNumber := i
  swapPosition := i
  presence := true
  use := bits.1
  modified := bits.2

def ringClock (p : ℕ) : ClockStruct where
  processId := 1
  framesInMemory := [⟨0, ⟨0, 0⟩, 0⟩, ⟨1, ⟨0, 1⟩, 1⟩, ⟨2, ⟨0, 2⟩, 2⟩]
  pointer := p

def ringMemory (first second third : Bool × Bool) (p : ℕ) : Memory :=
  setStructClock { initMemory ringConfig (fun _ => 0) (fun _ => 0) with
    allPageTables := [{
      id := 0
      pagesList := [ringRow 0 first, ringRow 1 second, ringRow 2 third]
      segmentNum := 0 }]
    pageTablesCounter := 1 } 1 (ringClock p)

theorem ring_full (first second third : Bool × Bool) (p : ℕ) :
    FullClock ringConfig (ringMemory first second third p) (ringClock p).framesInMemory := by
  refine ⟨rfl, by simp [ringClock], ?_⟩
  intro k hk
  simp only [ringClock, List.mem_cons, List.not_mem_nil, or_false] at hk
  obtain rfl | rfl | rfl := hk <;> rfl

/-- The page the hand is at is in use, the next one is not. -/
theorem second_chance_ring :
    (∃ t k, t ≤ ringConfig.marcosPorProceso ∧ SecondChance ringConfig
      (ringMemory (false, false) (true, false) (true, true) 1) 1 (ringClock 1) t k) ∧
    (simpleClock ringConfig (ringMemory (false, false) (true, false) (true, true) 1) 1).map
      Prod.snd = some 0 :=
  ⟨second_chance ringConfig (ringMemory (false, false) (true, false) (true, true) 1) 1
    (ringClock 1) rfl (ring_full _ _ _ 1) (by decide) (by decide), by decide +kernel⟩

section Enhanced
variable {cfg : MemoryConfig} {m : Memory} {rows : List ClockRow} (hfull : FullClock cfg m rows)
  {p : ℕ} (hp : p < rows.length)

/-- The place of the bits (use, modified) in the order of the classes. -/
def pageClass (m : Memory) (k : ClockRow) : ℕ := 2*(used m k).toNat+(modifiedBit m k).toNat

/-- What a pass of the enhanced clock looks for. -/
def Wanted (pass : ClockPass) (m : Memory) (k : ClockRow) : Prop :=
  used m k = false ∧ modifiedBit m k = decide (pass = .second)

theorem modified_clock_fuel {fuel start q : ℕ} {pass : ClockPass} {result : Memory × ℕ × ℤ}
    (h : modifiedClockLoop cfg rows start fuel pass m q = some result) :
    modifiedClockLoop cfg rows start (fuel+1) pass m q = some result := by
  induction fuel generalizing pass m q with
  | zero => simp [modifiedClockLoop] at h
  | succ fuel ih =>
    rw [modifiedClockLoop] at h ⊢
    simp only [Option.bind_eq_bind, Option.bind_eq_some_iff] at h ⊢
    obtain ⟨k, hk, x, hx, h⟩ := h
    refine ⟨k, hk, x, hx, ?_⟩
    split at h
    · next hwanted => rwa [if_pos hwanted]
    · next hwanted =>
      rw [if_neg hwanted]
      cases pass with
      | first => exact ih h
      | second => exact ih h

/-- The loop ends with the visit after `t` others, and not before. -/
theorem modified_clock_ends {t : ℕ} {result : Option (Memory × ℕ × ℤ)}
    (hstuck : modifiedClockLoop cfg rows p t .first m p = none)
    (hends : ∀ rest, modifiedClockLoop cfg rows p (rest+1+t) .first m p = result) (fuel : ℕ) :
    modifiedClockLoop cfg rows p fuel .first m p = if t < fuel then result else none := by
  split
  · next hlt =>
    obtain ⟨rest, rfl⟩ : ∃ rest, fuel = rest+1+t := ⟨fuel-t-1, by omega⟩
    exact hends rest
  · next hlt =>
    have hmore : ∀ extra, fuel+extra ≤ t →
        modifiedClockLoop cfg rows p fuel .first m p ≠ none →
        modifiedClockLoop cfg rows p (fuel+extra) .first m p ≠ none := by
      intro extra _ hsome
      induction extra with
      | zero => exact hsome
      | succ extra ih =>
        obtain ⟨r, hr⟩ := Option.ne_none_iff_exists'.mp (ih (by omega))
        rw [← Nat.add_assoc, modified_clock_fuel hr]
        exact Option.some_ne_none r
    by_contra hsome
    exact hmore (t-fuel) (by omega) hsome (by rwa [Nat.add_sub_cancel' (by omega)])

include hfull hp

/-- One visit of `modified_clock`. -/
theorem modified_clock_visits (hmax : cfg.marcosPorProceso ≤ 65535) (fuel : ℕ) {d : ℕ}
    (hd : d < rows.length) (pass : ClockPass) (ks : List ClockRow) {k : ClockRow}
    (hk : rows[after rows.length p d]? = some k) :
    (Wanted pass (clearPages m ks) k →
      modifiedClockLoop cfg rows p (fuel+1) pass (clearPages m ks) (after rows.length p d) =
        (replaceByClock cfg (clearPages m ks) k.page).map fun m' =>
          (m', (after rows.length p d+1)%cfg.marcosPorProceso, k.frameNumberInMemory)) ∧
    (¬Wanted pass (clearPages m ks) k →
      modifiedClockLoop cfg rows p (fuel+1) pass (clearPages m ks) (after rows.length p d) =
        match pass with
        | .first => modifiedClockLoop cfg rows p fuel (if d+1 = rows.length then .second else .first)
            (clearPages m ks) (after rows.length p (d+1))
        | .second => modifiedClockLoop cfg rows p fuel
            (if d+1 = rows.length then .first else .second)
            (clearPages m (ks++[k])) (after rows.length p (d+1))) := by
  obtain ⟨x, hx⟩ := page_at_row hfull (List.mem_of_getElem? hk) ks
  have hnext := next_place hfull.length hp hd
  have hstored := next_place_uint16 hfull.length hp hd hmax
  have hwanted : Wanted pass (clearPages m ks) k ↔
      x.use = false ∧ x.modified = decide (pass = .second) := by
    simp [Wanted, used, modifiedBit, hx]
  rw [hwanted]
  simp only [modifiedClockLoop, hk, hx, Option.bind_eq_bind, Option.bind_some]
  refine ⟨fun h => ?_, fun h => ?_⟩
  · rw [if_pos h, hstored, next_place_mod hfull.length hp hd]
    cases replaceByClock cfg (clearPages m ks) k.page <;> rfl
  · rw [if_neg h, hnext, clear_pages_append]
    cases pass <;> simp only [after_back]

theorem first_pass (hmax : cfg.marcosPorProceso ≤ 65535) (ks : List ClockRow) (fuel d : ℕ)
    (hd : d ≤ rows.length) (hpass : ∀ e < d, ∀ k, rows[after rows.length p e]? = some k →
      ¬Wanted .first (clearPages m ks) k) :
    modifiedClockLoop cfg rows p (fuel+d) .first (clearPages m ks) p =
      modifiedClockLoop cfg rows p fuel (if d = rows.length then .second else .first)
        (clearPages m ks) (after rows.length p d) := by
  induction d generalizing fuel with
  | zero =>
    rw [after_zero hp, if_neg (by omega)]
    rfl
  | succ d ih =>
    obtain ⟨k, hk, -⟩ := row_at_place hp (by omega : d < rows.length)
    have hstep := ih (fuel+1) (by omega) fun e he => hpass e (by omega)
    rw [if_neg (by omega)] at hstep
    rw [show fuel+(d+1) = fuel+1+d by omega, hstep]
    exact (modified_clock_visits hfull hp hmax fuel (by omega) .first ks hk).2
      (hpass d (by omega) k hk)

theorem second_pass (hmax : cfg.marcosPorProceso ≤ 65535) (fuel d : ℕ) (hd : d ≤ rows.length)
    (hpass : ∀ e < d, ∀ k, rows[after rows.length p e]? = some k → ¬Wanted .second m k) :
    modifiedClockLoop cfg rows p (fuel+d) .second m p =
      modifiedClockLoop cfg rows p fuel (if d = rows.length then .first else .second)
        (clearPages m (passedRows rows p d)) (after rows.length p d) := by
  induction d generalizing fuel with
  | zero =>
    rw [after_zero hp, if_neg (by omega)]
    rfl
  | succ d ih =>
    obtain ⟨k, hk, -⟩ := row_at_place hp (by omega : d < rows.length)
    have hstep := ih (fuel+1) (by omega) fun e he => hpass e (by omega)
    rw [if_neg (by omega)] at hstep
    have hunwanted : ¬Wanted .second (clearPages m (passedRows rows p d)) k := by
      rw [Wanted, used_unpassed hfull (by omega) hk, modified_clear_pages]
      exact hpass d (by omega) k hk
    rw [show fuel+(d+1) = fuel+1+d by omega, hstep, passed_rows_succ hk]
    exact (modified_clock_visits hfull hp hmax fuel (by omega) .second _ hk).2 hunwanted

/-- The class of the victim says in which pass it is found. -/
def passOf (q : ℕ) : ClockPass := if q%2 = 0 then .first else .second

/-- The rows whose use bits are cleared before a victim of the class `q` is found. -/
def clearedBefore (rows : List ClockRow) (p q d : ℕ) : List ClockRow :=
  match q with
  | 0 => []
  | 1 => passedRows rows p d
  | _ => passedRows rows p rows.length

omit hfull hp in
theorem page_class_le (m : Memory) (k : ClockRow) : pageClass m k ≤ 3 := by
  unfold pageClass
  cases used m k <;> cases modifiedBit m k <;> decide

omit hfull hp in
theorem wanted_class (pass : ClockPass) (k : ClockRow) :
    Wanted pass m k ↔ pageClass m k = if pass = .second then 1 else 0 := by
  unfold Wanted pageClass
  cases pass <;> cases used m k <;> cases modifiedBit m k <;> decide

/-- After a second pass over all rows only the modified bits are left. -/
theorem class_cleared {k : ClockRow} (hk : k ∈ rows) :
    pageClass (clearPages m (passedRows rows p rows.length)) k = pageClass m k%2 := by
  have hunused : used (clearPages m (passedRows rows p rows.length)) k = false := by
    rw [used_cleared hfull.distinct (passed_rows_sub _ _ _) hk]
    simp [(mem_passed_rows_turn hp).mpr hk]
  unfold pageClass
  rw [hunused, modified_clear_pages]
  cases used m k <;> cases modifiedBit m k <;> decide

/-- The loop comes to the first row of the lowest class after that many whole turns. -/
theorem enhanced_passes (hmax : cfg.marcosPorProceso ≤ 65535) {q d : ℕ} (hq : q ≤ 3)
    (hd : d < rows.length) (hlow : ∀ k ∈ rows, q ≤ pageClass m k)
    (hfirst : ∀ e < d, ∀ k, rows[after rows.length p e]? = some k → pageClass m k ≠ q)
    (hlast : q = 3 → d = 0) (fuel : ℕ) :
    modifiedClockLoop cfg rows p (fuel+(q*rows.length+d)) .first m p =
      modifiedClockLoop cfg rows p fuel (passOf q) (clearPages m (clearedBefore rows p q d))
        (after rows.length p d) := by
  have hmem : ∀ {i : ℕ} {k : ClockRow}, rows[i]? = some k → k ∈ rows := fun h =>
    List.mem_of_getElem? h
  -- the first two passes find nothing below the class
  have turn (fuel : ℕ) (hpos : 1 ≤ q) :
      modifiedClockLoop cfg rows p (fuel+rows.length) .first m p =
        modifiedClockLoop cfg rows p fuel .second m p := by
    have h := first_pass hfull hp hmax [] fuel rows.length le_rfl fun e _ k hk => by
      rw [wanted_class]
      have := hlow k (hmem hk)
      simp [clearPages]
      omega
    rwa [if_pos rfl, after_turn] at h
  have clearing (fuel : ℕ) (hpos : 2 ≤ q) :
      modifiedClockLoop cfg rows p (fuel+rows.length) .second m p =
        modifiedClockLoop cfg rows p fuel .first
          (clearPages m (passedRows rows p rows.length)) p := by
    have h := second_pass hfull hp hmax fuel rows.length le_rfl fun e _ k hk => by
      rw [wanted_class]
      have := hlow k (hmem hk)
      simp
      omega
    rwa [if_pos rfl, after_turn] at h
  match q, hq with
  | 0, _ =>
    have h := first_pass hfull hp hmax [] fuel d hd.le fun e he k hk => by
      rw [wanted_class]
      simpa [clearPages] using hfirst e he k hk
    rw [if_neg (by omega)] at h
    simpa [passOf, clearedBefore, clearPages] using h
  | 1, _ =>
    have h := second_pass hfull hp hmax fuel d hd.le fun e he k hk => by
      rw [wanted_class]
      simpa using hfirst e he k hk
    rw [if_neg (by omega)] at h
    rw [show fuel+(1*rows.length+d) = fuel+d+rows.length by omega, turn _ le_rfl, h]
    rfl
  | 2, _ =>
    have h := first_pass hfull hp hmax (passedRows rows p rows.length) fuel d hd.le
      fun e he k hk => by
        rw [wanted_class, class_cleared hfull hp (hmem hk)]
        have := hlow k (hmem hk)
        have := hfirst e he k hk
        have := page_class_le m k
        simp
        omega
    rw [if_neg (by omega)] at h
    rw [show fuel+(2*rows.length+d) = fuel+d+rows.length+rows.length by omega,
      turn _ (by omega), clearing _ le_rfl, h]
    rfl
  | 3, _ =>
    obtain rfl := hlast rfl
    have h := first_pass hfull hp hmax (passedRows rows p rows.length) fuel rows.length le_rfl
      fun e _ k hk => by
        rw [wanted_class, class_cleared hfull hp (hmem hk)]
        have := hlow k (hmem hk)
        have := page_class_le m k
        simp
        omega
    rw [if_pos rfl, after_turn] at h
    rw [show fuel+(3*rows.length+0) = fuel+rows.length+rows.length+rows.length by omega,
      turn _ (by omega), clearing _ (by omega), h, after_zero hp]
    rfl

/-- At that row the pass finds what it looks for. -/
theorem victim_wanted {q d : ℕ} (hq : q ≤ 3) (hd : d < rows.length) {k : ClockRow}
    (hk : rows[after rows.length p d]? = some k) (hclass : pageClass m k = q) :
    Wanted (passOf q) (clearPages m (clearedBefore rows p q d)) k := by
  have hmem := List.mem_of_getElem? hk
  rw [wanted_class]
  match q, hq with
  | 0, _ => simpa [clearedBefore, clearPages, passOf] using hclass
  | 1, _ =>
    have husage := used_unpassed hfull hd hk
    simpa [clearedBefore, passOf, pageClass, husage, modified_clear_pages] using hclass
  | 2, _ =>
    rw [clearedBefore, class_cleared hfull hp hmem, hclass]
    · rfl
    · simp
    · simp
  | 3, _ =>
    rw [clearedBefore, class_cleared hfull hp hmem, hclass]
    · rfl
    · simp
    · simp

end Enhanced

/-- What the enhanced clock does when the row `k`, `d` steps from the hand, is the first of the
lowest class `q` of the pages. -/
structure BestClass (cfg : MemoryConfig) (m : Memory) (pid : ℤ) (c : ClockStruct) (q d : ℕ)
    (k : ClockRow) : Prop where
  member : pageClass m k = q
  lowest : ∀ j ∈ c.framesInMemory, q ≤ pageClass m j
  first : ∀ e < d, ∀ j, c.framesInMemory[after cfg.marcosPorProceso c.pointer e]? = some j →
    pageClass m j ≠ q
  replaced : Replaced cfg m pid c (modifiedClock cfg m pid)
    (after cfg.marcosPorProceso c.pointer d) k (clearedBefore c.framesInMemory c.pointer q d)
  visits : ∀ fuel,
    modifiedClockLoop cfg c.framesInMemory c.pointer fuel .first m c.pointer =
      if q*cfg.marcosPorProceso+d < fuel then
        (replaceByClock cfg (clearPages m (clearedBefore c.framesInMemory c.pointer q d))
          k.page).map fun m' =>
            (m', (after cfg.marcosPorProceso c.pointer d+1)%cfg.marcosPorProceso,
              k.frameNumberInMemory)
      else none
  bound : q*cfg.marcosPorProceso+d+1 ≤ 4*cfg.marcosPorProceso

/-- The enhanced clock takes the first page, in circular order from the hand, of the lowest
class of (use, modified), in at most four turns. -/
theorem best_class (cfg : MemoryConfig) (m : Memory) (pid : ℤ) (c : ClockStruct)
    (hclock : m.clockStructures pid = some c) (hfull : FullClock cfg m c.framesInMemory)
    (hmax : cfg.marcosPorProceso ≤ 65535) (hp : c.pointer < cfg.marcosPorProceso) :
    ∃ q d k, d < cfg.marcosPorProceso ∧ BestClass cfg m pid c q d k := by
  have hn := hfull.length
  have hp' : c.pointer < c.framesInMemory.length := by omega
  obtain ⟨least, hleast, hlow⟩ := Finset.exists_min_image c.framesInMemory.toFinset (pageClass m)
    ⟨c.framesInMemory[c.pointer], by simp⟩
  have hlow : ∀ j ∈ c.framesInMemory, pageClass m least ≤ pageClass m j := fun j hj =>
    hlow j (by simpa using hj)
  obtain ⟨i, hi, hleast⟩ := List.mem_iff_getElem.mp (List.mem_toFinset.mp hleast)
  obtain ⟨d, hfirst⟩ := first_exists hp'
    (fun i => ∃ k, c.framesInMemory[i]? = some k ∧ pageClass m k = pageClass m least)
    ⟨i, hi, least, by rw [List.getElem?_eq_getElem hi, hleast], rfl⟩
  obtain ⟨k, hk, hclass⟩ := hfirst.holds
  have hinside := hfirst.inside
  have hq := page_class_le m least
  have hbefore : ∀ e < d, ∀ j,
      c.framesInMemory[after c.framesInMemory.length c.pointer e]? = some j →
      pageClass m j ≠ pageClass m least :=
    fun e he j hj heq => hfirst.before e he ⟨j, hj, heq⟩
  have hlast : pageClass m least = 3 → d = 0 := by
    intro hthree
    by_contra hd
    obtain ⟨j, hj, hmem⟩ := row_at_place hp' (by omega : 0 < c.framesInMemory.length)
    have := hbefore 0 (by omega) j hj
    have := hlow j hmem
    have := page_class_le m j
    omega
  have hpasses := enhanced_passes hfull hp' hmax hq hinside hlow hbefore hlast
  have hends := modified_clock_ends
    (t := pageClass m least*c.framesInMemory.length+d) (by
      have hstuck := hpasses 0
      rw [Nat.zero_add] at hstuck
      rw [hstuck]
      rfl) fun rest => by
      rw [hpasses (rest+1), (modified_clock_visits hfull hp' hmax rest hinside _ _ hk).1
        (victim_wanted hfull hp' hq hinside hk hclass)]
  have hbound : pageClass m least*c.framesInMemory.length+d+1 ≤ 4*c.framesInMemory.length := by
    obtain hlt | hthree := hq.lt_or_eq
    · have := Nat.mul_le_mul_right c.framesInMemory.length (by omega : pageClass m least ≤ 2)
      omega
    · rw [hlast hthree, hthree]
      omega
  have hreturned : modifiedClock cfg m pid =
      (replaceByClock cfg (clearPages m (clearedBefore c.framesInMemory c.pointer
        (pageClass m least) d)) k.page).map fun m' => (setStructClock m' pid { c with pointer :=
          (after c.framesInMemory.length c.pointer d+1)%cfg.marcosPorProceso },
          k.frameNumberInMemory) := by
    simp only [modifiedClock, getStructClock, hclock, Option.bind_eq_bind, Option.bind_some, hends]
    rw [if_pos (by omega)]
    cases replaceByClock cfg (clearPages m (clearedBefore c.framesInMemory c.pointer
      (pageClass m least) d)) k.page <;> rfl
  have hsub : clearedBefore c.framesInMemory c.pointer (pageClass m least) d ⊆
      c.framesInMemory := by
    unfold clearedBefore
    split
    · simp
    · exact passed_rows_sub _ _ _
    · exact passed_rows_sub _ _ _
  have hreplaced := replaced_of_returned hfull hk hsub hreturned
  rw [hn] at hreplaced hends hbound hbefore hinside
  exact ⟨pageClass m least, d, k, hinside, hclass, hlow, hbefore, hreplaced, hends, hbound⟩

/-- All pages are in use and the second one is not modified. -/
theorem best_class_ring :
    (∃ q d k, d < ringConfig.marcosPorProceso ∧ BestClass ringConfig
      (ringMemory (true, true) (true, false) (true, true) 2) 1 (ringClock 2) q d k) ∧
    (modifiedClock ringConfig (ringMemory (true, true) (true, false) (true, true) 2) 1).map
      Prod.snd = some 1 :=
  ⟨best_class ringConfig (ringMemory (true, true) (true, false) (true, true) 2) 1 (ringClock 2)
    rfl (ring_full _ _ _ 2) (by decide) (by decide), by decide +kernel⟩

end Geck.ClockChoice
