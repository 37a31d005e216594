import Geck.LabelledRuns

/-!
# Tallies over lists and along runs

A quantity of a system of many threads is a sum over the list of their states,
and a step replaces one entry of that list. A quantity that each step changes
by a stated amount is known at the end of a run from the amounts along it.
-/

set_option autoImplicit false

namespace Geck.Tallies
open Geck.LabelledRuns

section Totals
variable {α β : Type*}

def total (f : α → ℤ) (l : List α) : ℤ := (l.map f).sum

@[simp] theorem total_nil (f : α → ℤ) : total f [] = 0 := rfl

@[simp] theorem total_cons (f : α → ℤ) (a : α) (l : List α) :
    total f (a::l) = f a+total f l := by
  simp [total]

@[simp] theorem total_append (f : α → ℤ) (l m : List α) :
    total f (l++m) = total f l+total f m := by
  simp [total]

@[simp] theorem total_map (f : β → ℤ) (g : α → β) (l : List α) :
    total f (l.map g) = total (fun a => f (g a)) l := by
  simp [total, Function.comp_def]

@[simp] theorem total_flatMap (f : β → ℤ) (g : α → List β) (l : List α) :
    total f (l.flatMap g) = total (fun a => total f (g a)) l := by
  induction l with
  | nil => rfl
  | cons a l ih => simp [ih]

theorem total_one (l : List α) : total (fun _ => 1) l = l.length := by
  simp [total]

/-- Replacing one entry moves the total by the difference of the two. -/
theorem total_set (f : α → ℤ) {l : List α} {i : ℕ} {a : α} (h : l[i]? = some a) (b : α) :
    total f (l.set i b) = total f l-f a+f b := by
  induction l generalizing i with
  | nil => simp at h
  | cons c l ih =>
    cases i with
    | zero =>
      obtain rfl : c = a := by simpa using h
      simp
      ring
    | succ i =>
      have := ih (i := i) (by simpa using h)
      simp only [List.set_cons_succ, total_cons, this]
      ring

theorem total_zero {f : α → ℤ} {l : List α} (h : ∀ a ∈ l, f a = 0) : total f l = 0 := by
  induction l with
  | nil => rfl
  | cons a l ih =>
    simp only [List.mem_cons, forall_eq_or_imp] at h
    rw [total_cons, h.1, ih h.2, add_zero]

/-- A total that is not zero has an entry that counts. -/
theorem exists_of_total_ne_zero {f : α → ℤ} {l : List α} (h : total f l ≠ 0) :
    ∃ a ∈ l, f a ≠ 0 := by
  by_contra hnone
  push Not at hnone
  exact h (total_zero hnone)

theorem total_nonneg {f : α → ℤ} (hf : ∀ a, 0 ≤ f a) (l : List α) : 0 ≤ total f l := by
  induction l with
  | nil => simp
  | cons a l ih =>
    have := hf a
    simp only [total_cons]
    omega

theorem le_total {f : α → ℤ} (hf : ∀ a, 0 ≤ f a) {l : List α} {a : α} (h : a ∈ l) :
    f a ≤ total f l := by
  induction l with
  | nil => simp at h
  | cons b l ih =>
    have hb := hf b
    have hl := total_nonneg hf l
    rw [total_cons]
    rcases List.mem_cons.mp h with rfl | h
    · omega
    · have := ih h
      omega

theorem pair_le_total {f : α → ℤ} (hf : ∀ a, 0 ≤ f a) {l : List α} {i j : ℕ} (hij : i < j)
    {a b : α} (ha : l[i]? = some a) (hb : l[j]? = some b) : f a+f b ≤ total f l := by
  induction l generalizing i j with
  | nil => simp at ha
  | cons c l ih =>
    have hc := hf c
    rw [total_cons]
    obtain ⟨j, rfl⟩ : ∃ k, j = k+1 := ⟨j-1, by omega⟩
    cases i with
    | zero =>
      obtain rfl : c = a := by simpa using ha
      have := le_total hf (List.mem_of_getElem? (i := j) (by simpa using hb))
      omega
    | succ i =>
      have := ih (i := i) (j := j) (by omega) (by simpa using ha) (by simpa using hb)
      omega

/-- When one entry makes up a total of at most one, no other entry counts. -/
theorem others_zero {f : α → ℤ} (hf : ∀ a, 0 ≤ f a) {l : List α} (hl : total f l ≤ 1) {i j : ℕ}
    (hij : i ≠ j) {a b : α} (ha : l[i]? = some a) (hb : l[j]? = some b) (h : f a = 1) :
    f b = 0 := by
  have hb0 := hf b
  rcases lt_or_gt_of_ne hij with hlt | hlt
  · have := pair_le_total hf hlt ha hb
    omega
  · have := pair_le_total hf hlt hb ha
    omega

/-- A quantity that depends on a key changes at one key. -/
theorem total_update {κ : Type*} [DecidableEq κ] (key : α → κ) {l : List α}
    (hnodup : (l.map key).Nodup) {k : κ} (hk : k ∈ l.map key) (g : κ → ℤ) (v : ℤ) :
    total (fun a => Function.update g k v (key a)) l = total (fun a => g (key a)) l-g k+v := by
  induction l with
  | nil => simp at hk
  | cons a l ih =>
    obtain ⟨hnew, hrest⟩ := List.nodup_cons.mp hnodup
    simp only [total_cons]
    by_cases ha : key a = k
    · have hsame : total (fun b => Function.update g k v (key b)) l = total (fun b => g (key b)) l := by
        unfold total
        congr 1
        refine List.map_congr_left fun b hb => Function.update_of_ne (fun heq => ?_) _ _
        exact hnew (ha ▸ heq ▸ List.mem_map_of_mem hb)
      rw [hsame, ha, Function.update_self]
      omega
    · rw [ih hrest ((List.mem_cons.mp hk).resolve_left (Ne.symm ha)), Function.update_of_ne ha]
      omega

end Totals

section Runs
variable {σ ε : Type*} (step : σ → ε → Option σ)

/-- The sum of what `amount` says of each step that a run takes. -/
def tally (amount : σ → ε → ℤ) : σ → List ε → ℤ
  | _, [] => 0
  | s, e::es =>
    match step s e with
    | none => 0
    | some t => amount s e+tally amount t es

theorem tally_nonneg {amount : σ → ε → ℤ} (h : ∀ s e, 0 ≤ amount s e) (es : List ε) (s : σ) :
    0 ≤ tally step amount s es := by
  induction es generalizing s with
  | nil => simp [tally]
  | cons e es ih =>
    unfold tally
    cases step s e with
    | none => simp
    | some t => exact add_nonneg (h s e) (ih t)

/-- A property that bounds a quantity holds all along a run if and only if the
amounts of the run never take the quantity over the bound. -/
theorem always_iff_tally (I P : σ → Prop) (value : σ → ℤ) (amount : σ → ε → ℤ) (bound : ℤ)
    (hI : ∀ s e t, I s → step s e = some t → I t)
    (hvalue : ∀ s e t, I s → step s e = some t → value t = value s+amount s e)
    (hamount : ∀ s e, 0 ≤ amount s e) (hP : ∀ s, I s → (P s ↔ value s ≤ bound))
    (es : List ε) (s : σ) (hi : I s) :
    Always step P s es ↔ value s+tally step amount s es ≤ bound := by
  induction es generalizing s with
  | nil => simp [Always, tally, hP s hi]
  | cons e es ih =>
    cases hs : step s e with
    | none => simp [Always, tally, hs, hP s hi]
    | some t =>
      have ht := hvalue s e t hi hs
      have hih := ih t (hI s e t hi hs)
      have hge := hamount s e
      have hrest := tally_nonneg step hamount es t
      simp only [Always, tally, hs, Option.some.injEq, forall_eq', hih, hP s hi]
      constructor
      · rintro ⟨_, h⟩
        omega
      · intro h
        constructor <;> omega

theorem tally_add (f g : σ → ε → ℤ) (es : List ε) (s : σ) :
    tally step (fun s e => f s e+g s e) s es = tally step f s es+tally step g s es := by
  induction es generalizing s with
  | nil => rfl
  | cons e es ih =>
    simp only [tally]
    cases step s e with
    | none => simp
    | some t =>
      simp only [ih]
      ring

theorem tally_mul (c : ℤ) (f : σ → ε → ℤ) (es : List ε) (s : σ) :
    tally step (fun s e => c*f s e) s es = c*tally step f s es := by
  induction es generalizing s with
  | nil => simp [tally]
  | cons e es ih =>
    simp only [tally]
    cases step s e with
    | none => simp
    | some t =>
      simp only [ih]
      ring

/-- How much a run has given. -/
theorem tally_collected {α : Type*} (f : σ → ε → List α) (es : List ε) {s u : σ}
    (h : run step s es = some u) :
    tally step (fun s e => ((f s e).length : ℤ)) s es = (collected step f s es).length := by
  induction es generalizing s with
  | nil => rfl
  | cons e es ih =>
    obtain ⟨t, ht, hr⟩ := (run_cons_some step).mp h
    simp [tally, collected, ht, ih hr]

/-- The rule of the potential: when each step's amount is paid by its cost and by what the
potential loses, so is the amount of a whole run. -/
theorem tally_paid (I : σ → Prop) (guard : σ → ε → Prop) (potential : σ → ℤ)
    (amount cost : σ → ε → ℤ) (hI : ∀ s e t, I s → guard s e → step s e = some t → I t)
    (hpaid : ∀ s e t, I s → guard s e → step s e = some t →
      potential t+amount s e ≤ potential s+cost s e)
    (es : List ε) (s u : σ) (hi : I s) (hg : Guarded step guard s es)
    (h : run step s es = some u) :
    potential u+tally step amount s es ≤ potential s+tally step cost s es := by
  induction es generalizing s with
  | nil =>
    obtain rfl : s = u := by simpa [run] using h
    simp [tally]
  | cons e es ih =>
    obtain ⟨t, ht, hr⟩ := (run_cons_some step).mp h
    have hrest := ih t (hI s e t hi hg.1 ht) (hg.2 t ht) hr
    have := hpaid s e t hi hg.1 ht
    simp only [tally, ht]
    omega

/-- What each counted step brings nearer and no other step delays has happened
once there were as many counted steps as it was away. -/
theorem happens_within (I P Q : σ → Prop) (distance : σ → ℕ) (counted : ε → Bool)
    (hI : ∀ s e t, I s → step s e = some t → I t)
    (hP : ∀ s e t, I s → P s → step s e = some t →
      Q t ∨ (P t ∧ distance t+(if counted e then 1 else 0) ≤ distance s))
    (hQ : ∀ s e t, I s → Q s → step s e = some t → Q t) (hpos : ∀ s, P s → 0 < distance s)
    (es : List ε) (s u : σ) (hi : I s) (hp : P s) (hr : run step s es = some u)
    (hcount : distance s ≤ es.countP counted) : Q u := by
  induction es generalizing s with
  | nil =>
    have := hpos s hp
    simp only [List.countP_nil] at hcount
    omega
  | cons e es ih =>
    obtain ⟨t, ht, hr⟩ := (run_cons_some step).mp hr
    have hi' := hI s e t hi ht
    rcases hP s e t hi hp ht with hq | ⟨hp', hless⟩
    · exact (invariant_run step (fun s => I s ∧ Q s)
        (fun s e t h ht => ⟨hI s e t h.1 ht, hQ s e t h.1 h.2 ht⟩) es t u ⟨hi', hq⟩ hr).2
    · apply ih t hi' hp' hr
      rw [List.countP_cons] at hcount
      omega

end Runs

end Geck.Tallies
