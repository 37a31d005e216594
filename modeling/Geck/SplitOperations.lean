import Geck.LabelledRuns

/-!
# Operations in two parts

A step may read a component of a shared state and write it back. When these are
two parts, other steps come between them, and what those write to the component
is lost. Operations on one component that never overlap are as good as whole.
-/

set_option autoImplicit false

namespace Geck.SplitOperations
open Geck.LabelledRuns

/-- A transition whose steps are made by agents. `component` is what a step reads
and writes back, and `locked` the component whose mutex it holds meanwhile. -/
structure Operations (σ ε ι κ ν : Type*) where
  step : σ → ε → Option σ
  agent : ε → ι
  component : σ → ε → Option κ
  locked : σ → ε → Option κ
  get : σ → κ → ν
  put : σ → κ → ν → σ

/-- An operation that has read its component and not written it yet. -/
structure Begun (ε κ ν : Type*) where
  event : ε
  component : κ
  locked : Option κ
  seen : ν

structure Parted (σ ε κ ν : Type*) where
  whole : σ
  begun : List (Begun ε κ ν)

inductive Move (ε : Type*) where
  | whole (e : ε)
  | begins (e : ε)
  | ends (n : ℕ)

def isWhole {ε : Type*} (p : ε → Bool) : Move ε → Bool
  | .whole e => p e
  | _ => false

section Parts
variable {σ ε ι κ ν : Type*} (ops : Operations σ ε ι κ ν)

/-- The agent is in no operation, and nobody holds the mutex it needs. -/
def Free (c : Parted σ ε κ ν) (e : ε) : Prop :=
  (∀ o ∈ c.begun, ops.agent o.event ≠ ops.agent e) ∧
    ∀ k ∈ ops.locked c.whole e, ∀ o ∈ c.begun, o.locked ≠ some k

/-- An operation begins where no operation on its component has begun. -/
def Alone (c : Parted σ ε κ ν) : Move ε → Prop
  | .begins e => ∀ k ∈ ops.component c.whole e, ∀ o ∈ c.begun, o.component ≠ k
  | _ => True

instance [DecidableEq ι] [DecidableEq κ] (c : Parted σ ε κ ν) (e : ε) : Decidable (Free ops c e) :=
  inferInstanceAs (Decidable (_ ∧ _))

instance [DecidableEq κ] (c : Parted σ ε κ ν) : ∀ p, Decidable (Alone ops c p)
  | .whole _ => isTrue trivial
  | .begins e => inferInstanceAs
      (Decidable (∀ k ∈ ops.component c.whole e, ∀ o ∈ c.begun, o.component ≠ k))
  | .ends _ => isTrue trivial

/-- The end of an operation writes what follows from what its beginning read. -/
def move [DecidableEq ι] [DecidableEq κ] (c : Parted σ ε κ ν) :
    Move ε → Option (Parted σ ε κ ν)
  | .whole e =>
    if Free ops c e ∧ (ops.component c.whole e).isNone then
      (ops.step c.whole e).map fun t => { c with whole := t }
    else none
  | .begins e =>
    if Free ops c e then
      (ops.component c.whole e).map fun k => { c with
        begun := c.begun++[⟨e, k, ops.locked c.whole e, ops.get c.whole k⟩] }
    else none
  | .ends n =>
    (c.begun[n]?).bind fun o =>
      (ops.step (ops.put c.whole o.component o.seen) o.event).map fun t => ⟨t, c.begun.eraseIdx n⟩

/-- The steps that a move completes. -/
def completed (c : Parted σ ε κ ν) : Move ε → List ε
  | .whole e => [e]
  | .begins _ => []
  | .ends n => (c.begun[n]?).elim [] fun o => [o.event]

/-- What a move gives, when the steps it completes give `f`. -/
def given {α : Type*} (f : σ → ε → List α) (c : Parted σ ε κ ν) : Move ε → List α
  | .whole e => f c.whole e
  | .begins _ => []
  | .ends n =>
    (c.begun[n]?).elim [] fun o => f (ops.put c.whole o.component o.seen) o.event

/-- A step as moves between which nobody else moves. -/
def undivided (s : σ) (e : ε) : List (Move ε) :=
  if (ops.component s e).isSome then [.begins e, .ends 0] else [.whole e]

/-- A component changes only in the operations on it, and what an agent is about to
do is changed by nobody else while the component it needs stays. -/
structure Lawful : Prop where
  put_get : ∀ s k, ops.put s k (ops.get s k) = s
  frame : ∀ {s e t k}, ops.step s e = some t → ops.component s e ≠ some k →
    ops.get t k = ops.get s k
  waiting : ∀ {s e t e' k}, ops.step s e = some t → ops.agent e ≠ ops.agent e' →
    ops.component s e' = some k → ops.get t k = ops.get s k → ops.component t e' = some k

/-- What has begun is of different agents on different components, and is not out of date. -/
structure Intact (c : Parted σ ε κ ν) : Prop where
  agents : c.begun.Pairwise fun o p => ops.agent o.event ≠ ops.agent p.event
  components : c.begun.Pairwise fun o p => o.component ≠ p.component
  current : ∀ o ∈ c.begun, o.seen = ops.get c.whole o.component
  waiting : ∀ o ∈ c.begun, ops.component c.whole o.event = some o.component

theorem intact_nil (s : σ) : Intact ops (⟨s, []⟩ : Parted σ ε κ ν) where
  agents := List.Pairwise.nil
  components := List.Pairwise.nil
  current := by simp
  waiting := by simp

end Parts

/-- An element and the others of a list. -/
theorem pairwise_erase {α : Type*} {r : α → α → Prop} (hsymm : ∀ a b, r a b → r b a) {l : List α}
    (h : l.Pairwise r) {n : ℕ} {a b : α} (ha : l[n]? = some a) (hb : b ∈ l.eraseIdx n) : r a b := by
  induction l generalizing n with
  | nil => simp at ha
  | cons c l ih =>
    rw [List.pairwise_cons] at h
    cases n with
    | zero =>
      obtain rfl : c = a := by simpa using ha
      exact h.1 b hb
    | succ n =>
      simp only [List.getElem?_cons_succ] at ha
      rw [List.eraseIdx_cons_succ, List.mem_cons] at hb
      rcases hb with rfl | hb
      · exact hsymm _ _ (h.1 a (List.mem_of_getElem? ha))
      · exact ih h.2 ha hb

section Runs
variable {σ ε ι κ ν : Type*} [DecidableEq ι] [DecidableEq κ] {ops : Operations σ ε ι κ ν}
  {c d : Parted σ ε κ ν}

theorem whole_some {e : ε} (h : move ops c (.whole e) = some d) :
    ∃ t, Free ops c e ∧ ops.component c.whole e = none ∧ ops.step c.whole e = some t ∧
      d = { c with whole := t } := by
  simp only [move, Option.ite_none_right_eq_some, Option.map_eq_some_iff,
    Option.isNone_iff_eq_none] at h
  obtain ⟨⟨hfree, hnone⟩, t, ht, rfl⟩ := h
  exact ⟨t, hfree, hnone, ht, rfl⟩

theorem begins_some {e : ε} (h : move ops c (.begins e) = some d) :
    ∃ k, Free ops c e ∧ ops.component c.whole e = some k ∧ d = { c with
      begun := c.begun++[⟨e, k, ops.locked c.whole e, ops.get c.whole k⟩] } := by
  simp only [move, Option.ite_none_right_eq_some, Option.map_eq_some_iff] at h
  obtain ⟨hfree, k, hk, rfl⟩ := h
  exact ⟨k, hfree, hk, rfl⟩

theorem ends_some {n : ℕ} (h : move ops c (.ends n) = some d) :
    ∃ o t, c.begun[n]? = some o ∧
      ops.step (ops.put c.whole o.component o.seen) o.event = some t ∧
      d = ⟨t, c.begun.eraseIdx n⟩ := by
  simp only [move, Option.bind_eq_some_iff, Option.map_eq_some_iff] at h
  obtain ⟨o, ho, t, ht, rfl⟩ := h
  exact ⟨o, t, ho, ht, rfl⟩

omit [DecidableEq ι] [DecidableEq κ] in
/-- What has begun stays current through a step on other components by other agents. -/
theorem kept_operation (hlaw : Lawful ops) (hc : Intact ops c) {o : Begun ε κ ν} (ho : o ∈ c.begun)
    {e : ε} {t : σ} (ht : ops.step c.whole e = some t) (hagent : ops.agent e ≠ ops.agent o.event)
    (hother : ops.component c.whole e ≠ some o.component) :
    o.seen = ops.get t o.component ∧ ops.component t o.event = some o.component := by
  have hframe := hlaw.frame ht hother
  exact ⟨(hc.current o ho).trans hframe.symm, hlaw.waiting ht hagent (hc.waiting o ho) hframe⟩

/-- Operations that do not overlap: a move is nothing, or the step it completes. -/
theorem move_alone (hlaw : Lawful ops) (hc : Intact ops c) {p : Move ε} (halone : Alone ops c p)
    (h : move ops c p = some d) :
    Intact ops d ∧ run ops.step c.whole (completed c p) = some d.whole := by
  cases p with
  | whole e =>
    obtain ⟨t, hfree, hnone, ht, rfl⟩ := whole_some h
    have hkept := fun o ho => kept_operation hlaw hc (o := o) ho ht (Ne.symm (hfree.1 o ho))
      (by simp [hnone])
    exact ⟨⟨hc.agents, hc.components, fun o ho => (hkept o ho).1, fun o ho => (hkept o ho).2⟩,
      by simp [completed, run, ht]⟩
  | begins e =>
    obtain ⟨k, hfree, hk, rfl⟩ := begins_some h
    refine ⟨⟨?_, ?_, ?_, ?_⟩, rfl⟩
    · exact List.pairwise_append.mpr ⟨hc.agents, List.pairwise_singleton _ _, by
        simpa using hfree.1⟩
    · exact List.pairwise_append.mpr ⟨hc.components, List.pairwise_singleton _ _, by
        simpa using halone k hk⟩
    · intro o ho
      rcases List.mem_append.mp ho with hold | hnew
      · exact hc.current o hold
      · obtain rfl := List.mem_singleton.mp hnew
        rfl
    · intro o ho
      rcases List.mem_append.mp ho with hold | hnew
      · exact hc.waiting o hold
      · obtain rfl := List.mem_singleton.mp hnew
        exact hk
  | ends n =>
    obtain ⟨o, t, ho, ht, rfl⟩ := ends_some h
    have hmem := List.mem_of_getElem? ho
    rw [hc.current o hmem, hlaw.put_get] at ht
    have hwaiting := hc.waiting o hmem
    have hkept : ∀ p ∈ c.begun.eraseIdx n, p.seen = ops.get t p.component ∧
        ops.component t p.event = some p.component := by
      intro p hp
      have hagent := pairwise_erase (fun _ _ => Ne.symm) hc.agents ho hp
      have hother := pairwise_erase (fun _ _ => Ne.symm) hc.components ho hp
      exact kept_operation hlaw hc (List.mem_of_mem_eraseIdx hp) ht hagent (by simpa [hwaiting])
    exact ⟨⟨hc.agents.sublist (List.eraseIdx_sublist _ _),
      hc.components.sublist (List.eraseIdx_sublist _ _), fun p hp => (hkept p hp).1,
      fun p hp => (hkept p hp).2⟩, by simp [completed, ho, run, ht]⟩

/-- Where operations do not overlap, their parts come to a run of whole steps. -/
theorem parted_run (hlaw : Lawful ops) {ps : List (Move ε)} (hc : Intact ops c)
    (halone : Guarded (move ops) (Alone ops) c ps) (h : run (move ops) c ps = some d) :
    Intact ops d ∧ run ops.step c.whole (collected (move ops) completed c ps) = some d.whole :=
  ⟨guarded_run (move ops) (Intact ops) (Alone ops)
    (fun _ _ _ hi hg ht => (move_alone hlaw hi hg ht).1) ps c d hc halone h,
    (guarded_projection (move ops) ops.step Parted.whole completed (Intact ops) (Alone ops)
      (fun _ _ => True) (fun _ _ _ hi hg ht => ⟨(move_alone hlaw hi hg ht).1,
        guarded_trivial ops.step _ _, (move_alone hlaw hi hg ht).2⟩) ps c d hc halone h).2⟩

/-- What whole steps preserve, parts that do not overlap preserve. -/
theorem move_invariant (hlaw : Lawful ops) {I : σ → Prop}
    (hI : ∀ s e t, I s → ops.step s e = some t → I t) (hc : Intact ops c) (hi : I c.whole)
    {p : Move ε} (halone : Alone ops c p) (h : move ops c p = some d) :
    Intact ops d ∧ I d.whole := by
  obtain ⟨hd, hrun⟩ := move_alone hlaw hc halone h
  exact ⟨hd, invariant_run ops.step I hI _ _ _ hi hrun⟩

theorem parted_always (hlaw : Lawful ops) {I : σ → Prop} {P : Parted σ ε κ ν → Prop}
    (hI : ∀ s e t, I s → ops.step s e = some t → I t)
    (hP : ∀ c, Intact ops c → I c.whole → P c) {s : σ} (hs : I s) (ps : List (Move ε))
    (halone : Guarded (move ops) (Alone ops) ⟨s, []⟩ ps) : Always (move ops) P ⟨s, []⟩ ps :=
  always_of_guarded (move ops) (fun c => Intact ops c ∧ I c.whole) P (Alone ops)
    (fun _ _ _ hc hg h => move_invariant hlaw hI hc.1 hc.2 hg h) (fun c hc => hP c hc.1 hc.2) ps _
    ⟨intact_nil ops s, hs⟩ halone

/-- A run of whole steps is a run of moves, so that nothing is lost by the division. -/
theorem undivided_run (hlaw : Lawful ops) {es : List ε} {s u : σ} (h : run ops.step s es = some u) :
    Guarded (move ops) (Alone ops) ⟨s, []⟩ (collected ops.step (undivided ops) s es) ∧
      run (move ops) ⟨s, []⟩ (collected ops.step (undivided ops) s es) = some ⟨u, []⟩ := by
  refine guarded_projection ops.step (move ops) (fun s => ⟨s, []⟩) (undivided ops) (fun _ => True)
    (fun _ _ => True) (Alone ops) (fun s e t _ _ ht => ⟨trivial, ?_⟩) es s u trivial
    (guarded_trivial ops.step es s) h
  cases hk : ops.component s e with
  | none => simp [undivided, hk, Guarded, Alone, run, move, Free, ht]
  | some k =>
    have hcurrent : ops.step (ops.put s k (ops.get s k)) e = some t := by rw [hlaw.put_get, ht]
    simp [undivided, hk, Guarded, Alone, run, move, Free, hcurrent]

/-- Steps that are whole are completed as often as they are taken. -/
theorem count_completed (p : ε → Bool) {ps : List (Move ε)} (h : run (move ops) c ps = some d) :
    ps.countP (isWhole p) ≤
      (collected (move ops) completed c ps).countP p := by
  induction ps generalizing c with
  | nil => simp
  | cons m ps ih =>
    obtain ⟨b, hb, hr⟩ := (run_cons_some _).mp h
    have hrest := ih hr
    simp only [collected, hb, Option.elim_some, List.countP_cons, List.countP_append]
    cases m with
    | whole e =>
      cases hp : p e <;> simp [completed, isWhole, hp] <;> omega
    | begins e | ends n =>
      simp only [isWhole, Bool.false_eq_true, if_false]
      omega

theorem given_completed (hlaw : Lawful ops) {α : Type*} (f : σ → ε → List α) (hc : Intact ops c)
    {p : Move ε} (h : move ops c p = some d) :
    given ops f c p = collected ops.step f c.whole (completed c p) := by
  cases p with
  | whole e =>
    obtain ⟨t, -, -, ht, -⟩ := whole_some h
    simp [given, completed, collected, ht]
  | begins e => rfl
  | ends n =>
    obtain ⟨o, t, ho, ht, -⟩ := ends_some h
    rw [hc.current o (List.mem_of_getElem? ho), hlaw.put_get] at ht
    simp [given, completed, collected, ho, ht, hc.current o (List.mem_of_getElem? ho), hlaw.put_get]

/-- The parts give what the whole steps they come to give. -/
theorem given_run (hlaw : Lawful ops) {α : Type*} (f : σ → ε → List α) {ps : List (Move ε)}
    (hc : Intact ops c) (halone : Guarded (move ops) (Alone ops) c ps)
    (h : run (move ops) c ps = some d) :
    collected (move ops) (given ops f) c ps =
      collected ops.step f c.whole (collected (move ops) completed c ps) := by
  induction ps generalizing c with
  | nil => rfl
  | cons p ps ih =>
    obtain ⟨b, hb, hr⟩ := (run_cons_some _).mp h
    obtain ⟨hintact, hrun⟩ := move_alone hlaw hc halone.1 hb
    simp only [collected, hb, Option.elim_some]
    rw [collected_append ops.step f _ hrun, given_completed hlaw f hc hb,
      ih hintact (halone.2 b hb) hr]

end Runs

end Geck.SplitOperations
