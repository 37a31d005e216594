import Mathlib

/-!
# Runs of a partial labelled transition

A transition takes a state and a label and either moves or is refused. Runs
are finite label lists. Invariants are stated once for a single step and are
carried along a run here; a guard is a condition on the state before a step
and on its label, and is checked along the run that is actually taken.
-/

set_option autoImplicit false

namespace Geck.LabelledRuns

variable {σ ε : Type*} (step : σ → ε → Option σ)

def run : σ → List ε → Option σ
  | s, [] => some s
  | s, e::es => (step s e).bind fun t => run t es

/-- The state a run ends in, or its first state if the run is refused. -/
def reached (s : σ) (es : List ε) : σ := (run step s es).getD s

def Guarded (guard : σ → ε → Prop) : σ → List ε → Prop
  | _, [] => True
  | s, e::es => guard s e ∧ ∀ t, step s e = some t → Guarded guard t es

def Always (P : σ → Prop) : σ → List ε → Prop
  | s, [] => P s
  | s, e::es => P s ∧ ∀ t, step s e = some t → Always P t es

instance guardedDecidable (guard : σ → ε → Prop) [∀ s e, Decidable (guard s e)] :
    ∀ (s : σ) (es : List ε), Decidable (Guarded step guard s es)
  | _, [] => isTrue trivial
  | s, e::es =>
    match h : step s e with
    | none => decidable_of_iff (guard s e) (by simp [Guarded, h])
    | some t =>
      have := guardedDecidable guard t es
      decidable_of_iff (guard s e ∧ Guarded step guard t es) (by simp [Guarded, h])

theorem run_cons {s t : σ} {e : ε} (es : List ε) (h : step s e = some t) :
    run step s (e::es) = run step t es := by
  simp [run, h]

theorem run_cons_some {s u : σ} {e : ε} {es : List ε} :
    run step s (e::es) = some u ↔ ∃ t, step s e = some t ∧ run step t es = some u := by
  simp [run, Option.bind_eq_some_iff]

theorem run_reached (s : σ) (es : List ε) (h : (run step s es).isSome) :
    run step s es = some (reached step s es) := by
  obtain ⟨t, ht⟩ := Option.isSome_iff_exists.mp h
  simp [reached, ht]

theorem run_append (es fs : List ε) (s : σ) :
    run step s (es++fs) = (run step s es).bind fun t => run step t fs := by
  induction es generalizing s with
  | nil => rfl
  | cons e es ih =>
    simp only [List.cons_append, run]
    cases step s e with
    | none => rfl
    | some t => exact ih t

/-- The induction over a run: what every guarded step preserves holds wherever
a guarded run ends. -/
theorem guarded_run (P : σ → Prop) (guard : σ → ε → Prop)
    (hstep : ∀ s e t, P s → guard s e → step s e = some t → P t)
    (es : List ε) (s u : σ) (hs : P s) (hg : Guarded step guard s es)
    (h : run step s es = some u) : P u := by
  induction es generalizing s with
  | nil =>
    obtain rfl : s = u := by simpa [run] using h
    exact hs
  | cons e es ih =>
    obtain ⟨t, ht, hr⟩ := (run_cons_some step).mp h
    exact ih t (hstep s e t hs hg.1 ht) (hg.2 t ht) hr

theorem guarded_trivial (es : List ε) (s : σ) : Guarded step (fun _ _ => True) s es := by
  induction es generalizing s with
  | nil => trivial
  | cons e es ih => exact ⟨trivial, fun t _ => ih t⟩

theorem invariant_run (P : σ → Prop) (hstep : ∀ s e t, P s → step s e = some t → P t)
    (es : List ε) (s u : σ) (hs : P s) (h : run step s es = some u) : P u :=
  guarded_run step P (fun _ _ => True) (fun s e t hp _ ht => hstep s e t hp ht) es s u hs
    (guarded_trivial step es s) h

theorem guarded_mono {guard guard' : σ → ε → Prop} (himp : ∀ s e, guard s e → guard' s e)
    (es : List ε) (s : σ) (h : Guarded step guard s es) : Guarded step guard' s es := by
  induction es generalizing s with
  | nil => trivial
  | cons e es ih => exact ⟨himp s e h.1, fun t ht => ih t (h.2 t ht)⟩

theorem guarded_and (guard guard' : σ → ε → Prop) (es : List ε) (s : σ)
    (h : Guarded step guard s es) (h' : Guarded step guard' s es) :
    Guarded step (fun s e => guard s e ∧ guard' s e) s es := by
  induction es generalizing s with
  | nil => trivial
  | cons e es ih => exact ⟨⟨h.1, h'.1⟩, fun t ht => ih t (h.2 t ht) (h'.2 t ht)⟩

/-- A guarded run never stops early when the guard lets every step through. -/
theorem guarded_progress (P : σ → Prop) (guard : σ → ε → Prop)
    (hstep : ∀ s e, P s → guard s e → ∃ t, step s e = some t ∧ P t)
    (es : List ε) (s : σ) (hs : P s) (hg : Guarded step guard s es) :
    ∃ u, run step s es = some u ∧ P u := by
  induction es generalizing s with
  | nil => exact ⟨s, rfl, hs⟩
  | cons e es ih =>
    obtain ⟨t, ht, hp⟩ := hstep s e hs hg.1
    obtain ⟨u, hu, hpu⟩ := ih t hp (hg.2 t ht)
    exact ⟨u, (run_cons step es ht).trans hu, hpu⟩

theorem always_last (P : σ → Prop) (es : List ε) (s u : σ) (h : Always step P s es)
    (hr : run step s es = some u) : P u := by
  induction es generalizing s with
  | nil =>
    obtain rfl : s = u := by simpa [run] using hr
    exact h
  | cons e es ih =>
    obtain ⟨t, ht, hr'⟩ := (run_cons_some step).mp hr
    exact ih t (h.2 t ht) hr'

theorem guarded_append (guard : σ → ε → Prop) (es : List ε) {fs : List ε} {s t : σ}
    (h : Guarded step guard s es) (hr : run step s es = some t) (h' : Guarded step guard t fs) :
    Guarded step guard s (es++fs) := by
  induction es generalizing s with
  | nil =>
    obtain rfl : s = t := by simpa [run] using hr
    exact h'
  | cons e es ih =>
    obtain ⟨u, hu, hr'⟩ := (run_cons_some step).mp hr
    refine ⟨h.1, fun v hv => ?_⟩
    obtain rfl := Option.some.inj (hu.symm.trans hv)
    exact ih (h.2 u hu) hr'

theorem guarded_left (guard : σ → ε → Prop) (es : List ε) {fs : List ε} {s : σ}
    (h : Guarded step guard s (es++fs)) : Guarded step guard s es := by
  induction es generalizing s with
  | nil => trivial
  | cons e es ih => exact ⟨h.1, fun t ht => ih (h.2 t ht)⟩

theorem guarded_right (guard : σ → ε → Prop) (es : List ε) {fs : List ε} {s t : σ}
    (h : Guarded step guard s (es++fs)) (hr : run step s es = some t) :
    Guarded step guard t fs := by
  induction es generalizing s with
  | nil =>
    cases hr
    exact h
  | cons e es ih =>
    obtain ⟨u, hu, hr⟩ := (run_cons_some step).mp hr
    exact ih (h.2 u hu) hr

/-- What a step keeps or ends is there at the end of a run, or was ended in some state of it. -/
theorem run_leads (I P Q : σ → Prop) (guard : σ → ε → Prop)
    (hI : ∀ s e t, I s → guard s e → step s e = some t → I t)
    (hP : ∀ s e t, I s → P s → guard s e → step s e = some t → P t ∨ Q t)
    (es : List ε) (s u : σ) (hi : I s) (hp : P s) (hg : Guarded step guard s es)
    (h : run step s es = some u) :
    P u ∨ ∃ before rest v, es = before++rest ∧ run step s before = some v ∧ Q v := by
  induction es generalizing s with
  | nil =>
    obtain rfl : s = u := by simpa [run] using h
    exact Or.inl hp
  | cons e es ih =>
    obtain ⟨t, ht, hr⟩ := (run_cons_some step).mp h
    rcases hP s e t hi hp hg.1 ht with hp' | hq
    · rcases ih t (hI s e t hi hg.1 ht) hp' (hg.2 t ht) hr with hlast | ⟨before, rest, v, rfl, hv, hq⟩
      · exact Or.inl hlast
      · exact Or.inr ⟨e::before, rest, v, rfl, (run_cons step before ht).trans hv, hq⟩
    · exact Or.inr ⟨[e], es, t, rfl, (run_cons step [] ht).trans rfl, hq⟩

/-- A run whose steps are each matched by some steps of `next` is matched as a whole. -/
theorem guarded_simulation {τ : Type*} (R : σ → τ → Prop) (next : τ → τ → Prop)
    (guard : σ → ε → Prop) (hstep : ∀ s e t r, R s r → guard s e → step s e = some t →
      ∃ r', Relation.ReflTransGen next r r' ∧ R t r')
    (es : List ε) (s u : σ) (r : τ) (hs : R s r) (hg : Guarded step guard s es)
    (h : run step s es = some u) : ∃ r', Relation.ReflTransGen next r r' ∧ R u r' := by
  induction es generalizing s r with
  | nil =>
    obtain rfl : s = u := by simpa [run] using h
    exact ⟨r, .refl, hs⟩
  | cons e es ih =>
    obtain ⟨t, ht, hr⟩ := (run_cons_some step).mp h
    obtain ⟨r₁, hr₁, ht₁⟩ := hstep s e t r hs hg.1 ht
    obtain ⟨r₂, hr₂, hu⟩ := ih t r₁ ht₁ (hg.2 t ht) hr
    exact ⟨r₂, hr₁.trans hr₂, hu⟩

/-- A deterministic relation leads to at most one state that has no successor. -/
theorem final_unique {τ : Type*} {next : τ → τ → Prop} (hdet : Relator.RightUnique next)
    {r a b : τ} (ha : Relation.ReflTransGen next r a) (hb : Relation.ReflTransGen next r b)
    (hna : ∀ c, ¬next a c) (hnb : ∀ c, ¬next b c) : a = b := by
  have stuck {x y : τ} (hx : ∀ c, ¬next x c) (h : Relation.ReflTransGen next x y) : x = y := by
    obtain rfl | ⟨c, hc, _⟩ := h.cases_head
    · rfl
    · exact absurd hc (hx c)
  obtain h | h := Relation.ReflTransGen.total_of_right_unique hdet ha hb
  · exact stuck hna h
  · exact (stuck hnb h).symm

theorem always_first (P : σ → Prop) (es : List ε) (s : σ) (h : Always step P s es) : P s := by
  cases es with
  | nil => exact h
  | cons => exact h.1

/-- What every guarded step preserves holds all along a guarded run. -/
theorem always_of_guarded (I P : σ → Prop) (guard : σ → ε → Prop)
    (hI : ∀ s e t, I s → guard s e → step s e = some t → I t) (hP : ∀ s, I s → P s)
    (es : List ε) (s : σ) (hs : I s) (hg : Guarded step guard s es) : Always step P s es := by
  induction es generalizing s with
  | nil => exact hP s hs
  | cons e es ih => exact ⟨hP s hs, fun t ht => ih t (hI s e t hs hg.1 ht) (hg.2 t ht)⟩

theorem always_of_invariant (I P : σ → Prop) (hI : ∀ s e t, I s → step s e = some t → I t)
    (hP : ∀ s, I s → P s) (es : List ε) (s : σ) (hs : I s) : Always step P s es :=
  always_of_guarded step I P (fun _ _ => True) (fun s e t hs _ ht => hI s e t hs ht) hP es s hs
    (guarded_trivial step es s)

/-- What the steps of a run give, in the order they are taken. -/
def collected {α : Type*} (f : σ → ε → List α) : σ → List ε → List α
  | _, [] => []
  | s, e::es => f s e++(step s e).elim [] fun t => collected f t es

theorem collected_none {α : Type*} {f : σ → ε → List α} (es : List ε)
    (hf : ∀ s, ∀ e ∈ es, f s e = []) (s : σ) : collected step f s es = [] := by
  induction es generalizing s with
  | nil => rfl
  | cons e es ih =>
    have hrest := ih fun t e' he' => hf t e' (List.mem_cons_of_mem e he')
    cases h : step s e with
    | none => simp [collected, h, hf s e List.mem_cons_self]
    | some t => simpa [collected, h, hf s e List.mem_cons_self] using hrest t

theorem collected_append {α : Type*} (f : σ → ε → List α) (es : List ε) {fs : List ε} {s t : σ}
    (h : run step s es = some t) :
    collected step f s (es++fs) = collected step f s es++collected step f t fs := by
  induction es generalizing s with
  | nil =>
    obtain rfl : s = t := by simpa [run] using h
    rfl
  | cons e es ih =>
    obtain ⟨next, hnext, hrest⟩ := (run_cons_some step).mp h
    simp [collected, hnext, ih hrest]

theorem collected_nothing {α : Type*} (es : List ε) (s : σ) :
    collected step (fun _ _ => ([] : List α)) s es = [] :=
  collected_none step es (fun _ _ _ => rfl) s

theorem collected_flat_map {α β : Type*} (f : σ → ε → List α) (g : α → List β) (es : List ε)
    (s : σ) :
    collected step (fun s e => (f s e).flatMap g) s es = (collected step f s es).flatMap g := by
  induction es generalizing s with
  | nil => rfl
  | cons e es ih =>
    cases h : step s e with
    | none => simp [collected, h]
    | some t => simp [collected, h, ih t]

/-- The induction over a run whose property also speaks of what the steps have given. -/
theorem collected_run {α : Type*} (f : σ → ε → List α) (I : List α → σ → Prop)
    (hstep : ∀ l s e t, I l s → step s e = some t → I (l++f s e) t)
    (es : List ε) (l : List α) (s u : σ) (hs : I l s) (h : run step s es = some u) :
    I (l++collected step f s es) u := by
  induction es generalizing l s with
  | nil =>
    obtain rfl : s = u := by simpa [run] using h
    simpa [collected] using hs
  | cons e es ih =>
    obtain ⟨t, ht, hr⟩ := (run_cons_some step).mp h
    have hrest := ih (l++f s e) t (hstep l s e t hs ht) hr
    simpa [collected, ht] using hrest

/-- What a run has given was given by one of its steps. -/
theorem collected_mem {α : Type*} {f : σ → ε → List α} {a : α} {es : List ε} {s u : σ}
    (ha : a ∈ collected step f s es) (h : run step s es = some u) :
    ∃ before e rest v t, es = before++e::rest ∧ run step s before = some v ∧ a ∈ f v e ∧
      step v e = some t := by
  induction es generalizing s with
  | nil => simp [collected] at ha
  | cons e es ih =>
    obtain ⟨t, ht, hr⟩ := (run_cons_some step).mp h
    simp only [collected, ht, Option.elim_some, List.mem_append] at ha
    rcases ha with hfirst | hrest
    · exact ⟨[], e, es, s, t, rfl, rfl, hfirst, ht⟩
    · obtain ⟨before, e', rest, v, t', rfl, hv, ha, ht'⟩ := ih hrest hr
      exact ⟨e::before, e', rest, v, t', rfl, (run_cons step before ht).trans hv, ha, ht'⟩

/-- The queue law: what was there and what entered is what left and what is there. -/
theorem collected_queue {α : Type*} (I : σ → Prop) (content : σ → List α)
    (enters leaves : σ → ε → List α) (hI : ∀ s e t, I s → step s e = some t → I t)
    (hstep : ∀ s e t, I s → step s e = some t →
      content s++enters s e = leaves s e++content t)
    (es : List ε) (s u : σ) (hs : I s) (h : run step s es = some u) :
    content s++collected step enters s es = collected step leaves s es++content u := by
  induction es generalizing s with
  | nil =>
    obtain rfl : s = u := by simpa [run] using h
    simp [collected]
  | cons e es ih =>
    obtain ⟨t, ht, hr⟩ := (run_cons_some step).mp h
    have hrest := ih t (hI s e t hs ht) hr
    simp only [collected, ht, Option.elim_some]
    calc content s++(enters s e++collected step enters t es)
        = leaves s e++(content t++collected step enters t es) := by
          rw [← List.append_assoc, hstep s e t hs ht, List.append_assoc]
      _ = leaves s e++collected step leaves t es++content u := by
          rw [hrest, List.append_assoc]

/-- A component seen through a view takes, in each guarded step of the whole, the
labels that step gives it, and they meet its own guard. So does a whole run. -/
theorem guarded_projection {τ δ : Type*} (next : τ → δ → Option τ) (view : σ → τ)
    (labels : σ → ε → List δ) (I : σ → Prop) (guard : σ → ε → Prop) (guard' : τ → δ → Prop)
    (hstep : ∀ s e t, I s → guard s e → step s e = some t → I t ∧
      Guarded next guard' (view s) (labels s e) ∧ run next (view s) (labels s e) = some (view t))
    (es : List ε) (s u : σ) (hs : I s) (hg : Guarded step guard s es)
    (h : run step s es = some u) :
    Guarded next guard' (view s) (collected step labels s es) ∧
      run next (view s) (collected step labels s es) = some (view u) := by
  induction es generalizing s with
  | nil =>
    obtain rfl : s = u := by simpa [run] using h
    exact ⟨trivial, rfl⟩
  | cons e es ih =>
    obtain ⟨t, ht, hr⟩ := (run_cons_some step).mp h
    obtain ⟨hi, hguard, hnext⟩ := hstep s e t hs hg.1 ht
    obtain ⟨hrest, hrun⟩ := ih t hi (hg.2 t ht) hr
    simp only [collected, ht, Option.elim_some]
    refine ⟨guarded_append next guard' _ hguard hnext hrest, ?_⟩
    rw [run_append, hnext, Option.bind_some, hrun]

/-- When a step that the guard refuses always ends outside the property, a run
keeps the property in every state if and only if all of its steps meet the
guard. The property `I` is what the run keeps whether or not the guard is met,
and `Q` what it keeps while the guard is met. -/
theorem always_iff_of_breaks (I Q P : σ → Prop) (assume guard : σ → ε → Prop)
    (hI : ∀ s e t, I s → assume s e → step s e = some t → I t)
    (hQ : ∀ s e t, I s → Q s → assume s e → guard s e → step s e = some t → Q t)
    (hP : ∀ s, I s → Q s → P s)
    (hbreak : ∀ s e t, I s → Q s → assume s e → ¬guard s e → step s e = some t → ¬P t)
    (hrefused : ∀ s e, I s → Q s → assume s e → step s e = none → guard s e)
    (es : List ε) (s : σ) (hi : I s) (hq : Q s) (ha : Guarded step assume s es) :
    Always step P s es ↔ Guarded step guard s es := by
  induction es generalizing s with
  | nil => simp [Always, Guarded, hP s hi hq]
  | cons e es ih =>
    have hp := hP s hi hq
    cases hs : step s e with
    | none => simp [Always, Guarded, hp, hs, hrefused s e hi hq ha.1 hs]
    | some t =>
      have ht := hI s e t hi ha.1 hs
      simp only [Always, Guarded, hp, hs, Option.some.injEq, forall_eq', true_and]
      constructor
      · intro h
        have hg : guard s e := by
          by_contra hg
          exact hbreak s e t hi hq ha.1 hg hs (always_first step P es t h)
        exact ⟨hg, (ih t ht (hQ s e t hi hq ha.1 hg hs) (ha.2 t hs)).mp h⟩
      · rintro ⟨hg, h⟩
        exact (ih t ht (hQ s e t hi hq ha.1 hg hs) (ha.2 t hs)).mpr h

/-- When a guard is exactly what makes a step keep the property, a run keeps
it in every state if and only if all of its steps meet the guard. The property
`I` is what the run keeps under its assumptions, whether or not the guard is met. -/
theorem always_iff_guarded (I P : σ → Prop) (assume guard : σ → ε → Prop)
    (hI : ∀ s e t, I s → assume s e → step s e = some t → I t)
    (hP : ∀ s e t, I s → P s → assume s e → step s e = some t → (P t ↔ guard s e))
    (hrefused : ∀ s e, I s → assume s e → step s e = none → guard s e)
    (es : List ε) (s : σ) (hi : I s) (hp : P s) (ha : Guarded step assume s es) :
    Always step P s es ↔ Guarded step guard s es :=
  always_iff_of_breaks step I P P assume guard hI
    (fun s e t hi hp ha hg hs => (hP s e t hi hp ha hs).mpr hg) (fun _ _ hp => hp)
    (fun s e t hi hp ha hg hs ht => hg ((hP s e t hi hp ha hs).mp ht))
    (fun s e hi _ ha hs => hrefused s e hi ha hs) es s hi hp ha

end Geck.LabelledRuns
