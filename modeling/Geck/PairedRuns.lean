import Geck.LabelledRuns

/-!
# Two runs side by side

Two states are related, two labels are related, and a transition takes related
states by related labels to related states or refuses both. Then so does a
run, and what a guard asks of one run it asks of the other.
-/

set_option autoImplicit false

namespace Geck.PairedRuns
open Geck.LabelledRuns

variable {α β γ δ σ ε : Type}

theorem rel_bind {R : α → β → Prop} {S : γ → δ → Prop} {x : Option α} {y : Option β}
    {f : α → Option γ} {g : β → Option δ} (h : Option.Rel R x y)
    (hfg : ∀ a b, R a b → Option.Rel S (f a) (g b)) : Option.Rel S (x >>= f) (y >>= g) := by
  cases h with
  | some hab => exact hfg _ _ hab
  | none => exact Option.Rel.none

/-- Both sides bind the same value. -/
theorem rel_bind_same {S : γ → δ → Prop} (x : Option α) {f : α → Option γ} {g : α → Option δ}
    (h : ∀ a, Option.Rel S (f a) (g a)) : Option.Rel S (x >>= f) (x >>= g) := by
  cases x with
  | some a => exact h a
  | none => exact Option.Rel.none

theorem rel_map {R : α → β → Prop} {S : γ → δ → Prop} {x : Option α} {y : Option β} {f : α → γ}
    {g : β → δ} (h : Option.Rel R x y) (hfg : ∀ a b, R a b → S (f a) (g b)) :
    Option.Rel S (x.map f) (y.map g) := by
  cases h with
  | some hab => exact Option.Rel.some (hfg _ _ hab)
  | none => exact Option.Rel.none

theorem rel_mono {R S : α → β → Prop} {x : Option α} {y : Option β} (h : Option.Rel R x y)
    (himp : ∀ a b, R a b → S a b) : Option.Rel S x y := by
  cases h with
  | some hab => exact Option.Rel.some (himp _ _ hab)
  | none => exact Option.Rel.none

theorem some_rel {R : α → β → Prop} {x : Option α} {y : Option β} (h : Option.Rel R x y) {b : β}
    (hb : y = some b) : ∃ a, x = some a ∧ R a b := by
  cases h with
  | some hab =>
    cases hb
    exact ⟨_, rfl, hab⟩
  | none => cases hb

section Paired
variable {step : σ → ε → Option σ} {R : σ → σ → Prop} {Q : ε → ε → Prop}
  (hstep : ∀ s s' e e', R s s' → Q e e' → Option.Rel R (step s e) (step s' e'))
include hstep

theorem run_paired {es es' : List ε} (h : List.Forall₂ Q es es') {s s' : σ} (hs : R s s') :
    Option.Rel R (run step s es) (run step s' es') := by
  induction h generalizing s s' with
  | nil => exact Option.Rel.some hs
  | cons he _ ih => exact rel_bind (hstep _ _ _ _ hs he) fun t t' ht => ih ht

theorem guarded_paired {guard : σ → ε → Prop}
    (hguard : ∀ s s' e e', R s s' → Q e e' → guard s e → guard s' e') {es es' : List ε}
    (h : List.Forall₂ Q es es') {s s' : σ} (hs : R s s') (hg : Guarded step guard s es) :
    Guarded step guard s' es' := by
  induction h generalizing s s' with
  | nil => trivial
  | cons he _ ih =>
    constructor
    · exact hguard _ _ _ _ hs he hg.1
    · intro t' ht'
      obtain ⟨t, ht, hr⟩ := some_rel (hstep _ _ _ _ hs he) ht'
      exact ih hr (hg.2 t ht)

end Paired

end Geck.PairedRuns
