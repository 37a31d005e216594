import Geck.LabelledRuns

/-!
# Machines that run side by side

The machines of a family are copies of one machine and move one at a time, each
by labels of its own. A run of the family is a run of every machine on its own
labels, so none depends on what the others do. What the family follows step by
step it follows along whole runs.
-/

set_option autoImplicit false

namespace Geck.SeparateMachines
open Geck.LabelledRuns

section Family
variable {ι σ δ : Type*} [DecidableEq ι] (step : σ → δ → Option σ)

/-- The machine `label.1` takes the step `label.2`. -/
def family (states : ι → σ) (label : ι × δ) : Option (ι → σ) :=
  (step (states label.1) label.2).map (Function.update states label.1)

def ownLabel (i : ι) (label : ι × δ) : Option δ := if label.1 = i then some label.2 else none

/-- The labels of one machine, in the order of the run. -/
def ownLabels (i : ι) (labels : List (ι × δ)) : List δ := labels.filterMap (ownLabel i)

theorem family_some {states states' : ι → σ} {label : ι × δ}
    (h : family step states label = some states') :
    ∃ t, step (states label.1) label.2 = some t ∧ states' = Function.update states label.1 t := by
  obtain ⟨t, ht, rfl⟩ := Option.map_eq_some_iff.mp h
  exact ⟨t, ht, rfl⟩

theorem run_own (i : ι) (labels : List (ι × δ)) (states states' : ι → σ)
    (h : run (family step) states labels = some states') :
    run step (states i) (ownLabels i labels) = some (states' i) := by
  induction labels generalizing states with
  | nil =>
    obtain rfl : states = states' := by simpa [run] using h
    rfl
  | cons label labels ih =>
    obtain ⟨next, hnext, hrest⟩ := (run_cons_some (family step)).mp h
    obtain ⟨t, ht, rfl⟩ := family_some step hnext
    have hown := ih _ hrest
    by_cases hi : label.1 = i
    · subst hi
      rw [Function.update_self] at hown
      have hlabel : ownLabel label.1 label = some label.2 := by simp [ownLabel]
      simpa [ownLabels, hlabel, run, ht] using hown
    · rw [Function.update_of_ne (Ne.symm hi)] at hown
      have hlabel : ownLabel i label = none := by simp [ownLabel, hi]
      simpa [ownLabels, hlabel] using hown

theorem run_one {states : ι → σ} {i : ι} {l : δ} {t : σ} (h : step (states i) l = some t) :
    run (family step) states [(i, l)] = some (Function.update states i t) := by
  simp [run, family, h]

end Family

/-- A system whose every guarded step is matched by labels of `next` is followed
by `next` along a guarded run. -/
theorem guarded_refinement {σ ε τ δ : Type*} (step : σ → ε → Option σ) (next : τ → δ → Option τ)
    (R : σ → τ → Prop) (labels : σ → ε → List δ) (guard : σ → ε → Prop)
    (hstep : ∀ s e t r, R s r → guard s e → step s e = some t →
      ∃ r', run next r (labels s e) = some r' ∧ R t r')
    (es : List ε) (s u : σ) (r : τ) (hs : R s r) (hg : Guarded step guard s es)
    (h : run step s es = some u) :
    ∃ r', run next r (collected step labels s es) = some r' ∧ R u r' := by
  induction es generalizing s r with
  | nil =>
    obtain rfl : s = u := by simpa [run] using h
    exact ⟨r, rfl, hs⟩
  | cons e es ih =>
    obtain ⟨t, ht, hr⟩ := (run_cons_some step).mp h
    obtain ⟨r₁, hr₁, ht₁⟩ := hstep s e t r hs hg.1 ht
    obtain ⟨r₂, hr₂, hu⟩ := ih t r₁ ht₁ (hg.2 t ht) hr
    refine ⟨r₂, ?_, hu⟩
    simp only [collected, ht, Option.elim_some]
    rw [run_append, hr₁, Option.bind_some, hr₂]

end Geck.SeparateMachines
