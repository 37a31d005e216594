import Mathlib

/-!
# A hand that goes around a circle

The places of the circle are the numbers below `n`. The hand moves one place at
a time and goes from the last place to the first. In one turn it meets every
place once, so a property that holds somewhere holds at a first place from it.
-/

set_option autoImplicit false

namespace Geck.CircularScan

/-- The place `d` steps after the place `p`, for at most one turn. -/
def after (n p d : ℕ) : ℕ := if p+d < n then p+d else p+d-n

theorem after_turn (n p : ℕ) : after n p n = p := by simp [after]

theorem after_injective {n p d e : ℕ} (hd : d < n) (he : e < n) (h : after n p d = after n p e) :
    d = e := by
  unfold after at h
  split_ifs at h <;> omega

/-- The hand is back where it started only after a whole turn. -/
theorem after_back (n p d : ℕ) : after n p (d+1) = p ↔ d+1 = n := by
  unfold after
  split_ifs <;> omega

section Places
variable {n p : ℕ} (hp : p < n)
include hp

theorem after_zero : after n p 0 = p := by simp [after, hp]

theorem after_lt {d : ℕ} (hd : d ≤ n) : after n p d < n := by
  unfold after
  split <;> omega

theorem after_succ {d : ℕ} (hd : d < n) :
    after n p (d+1) = if after n p d+1 = n then 0 else after n p d+1 := by
  unfold after
  split_ifs <;> omega

theorem after_reaches {i : ℕ} (hi : i < n) : ∃ d < n, after n p d = i := by
  by_cases h : p ≤ i
  · exact ⟨i-p, by omega, by simp [after, h, hi]⟩
  · refine ⟨n-p+i, by omega, ?_⟩
    unfold after
    split <;> omega

end Places

/-- `d` steps after `p` the property holds for the first time. -/
structure First (n p : ℕ) (P : ℕ → Prop) (d : ℕ) : Prop where
  inside : d < n
  holds : P (after n p d)
  before : ∀ e < d, ¬P (after n p e)

theorem first_exists {n p : ℕ} (hp : p < n) (P : ℕ → Prop) (h : ∃ i < n, P i) :
    ∃ d, First n p P d := by
  classical
  obtain ⟨i, hi, hP⟩ := h
  obtain ⟨d, hd, rfl⟩ := after_reaches hp hi
  have hex : ∃ d, P (after n p d) := ⟨d, hP⟩
  refine ⟨Nat.find hex, ?_, Nat.find_spec hex, fun e he => Nat.find_min hex he⟩
  exact (Nat.find_min' hex hP).trans_lt hd

/-- The places the hand passes in `d` steps. -/
def passed (n p d : ℕ) : List ℕ := (List.range d).map (after n p)

theorem passed_succ (n p d : ℕ) : passed n p (d+1) = passed n p d++[after n p d] := by
  simp [passed, List.range_succ]

theorem mem_passed {n p d i : ℕ} : i ∈ passed n p d ↔ ∃ e < d, after n p e = i := by
  simp [passed]

end Geck.CircularScan
