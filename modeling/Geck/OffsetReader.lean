import Mathlib

/-!
# Readers with a running offset

A reader looks at a buffer from an offset on, and gives a value and the offset
behind what it read. A text decodes to a value if the reader gives the value
and passes the text wherever it stands in a buffer. Texts of a sequence of
readers are put one behind the other. A reader that is run again and again
until it fails emits what its runs give.
-/

set_option autoImplicit false

namespace Geck.OffsetReader

variable {α β γ : Type}

abbrev Reader (α : Type) := ReaderT (List α) (StateT ℕ Option)

/-- The next `n` cells. -/
def cells (n : ℕ) : Reader α (List α) := fun buffer desp =>
  if desp+n ≤ buffer.length then some ((buffer.drop desp).take n, desp+n) else none

def ofOption : Option β → Reader α β
  | some v => pure v
  | none => fun _ _ => none

def repeated (r : Reader α β) : ℕ → Reader α (List β)
  | 0 => pure []
  | n+1 => do
    let v ← r
    let vs ← repeated r n
    return v::vs

/-- A reader started on a buffer of its own. -/
def within (buffer : List α) (r : Reader α β) : Reader α β :=
  ofOption ((r buffer 0).map Prod.fst)

def Decodes (r : Reader α β) (text : List α) (v : β) : Prop :=
  ∀ before after, r (before++(text++after)) before.length =
    some (v, before.length+text.length)

theorem decodes_cells (text : List α) : Decodes (cells text.length) text text := by
  intro before after
  simp [cells]

theorem decodes_pure (v : β) : Decodes (pure v : Reader α β) [] v := by
  intro before after
  rfl

theorem decodes_bind {r : Reader α β} {f : β → Reader α γ} {text text' : List α} {v : β} {w : γ}
    (h : Decodes r text v) (h' : Decodes (f v) text' w) : Decodes (r >>= f) (text++text') w := by
  intro before after
  have hfirst := h before (text'++after)
  have hthen := h' (before++text) after
  simp only [List.append_assoc, List.length_append] at hthen
  show (r (before++(text++text'++after)) before.length).bind
    (fun p => f p.1 (before++(text++text'++after)) p.2) = _
  rw [List.append_assoc, hfirst, Option.bind_some, hthen, List.length_append, Nat.add_assoc]

/-- The last value is returned with nothing more to read. -/
theorem decodes_return {r : Reader α β} {f : β → Reader α γ} {text : List α} {v : β} {w : γ}
    (h : Decodes r text v) (h' : Decodes (f v) [] w) : Decodes (r >>= f) text w := by
  have := decodes_bind h h'
  rwa [List.append_nil] at this

theorem decodes_of_option {o : Option β} {v : β} (h : o = some v) :
    Decodes (ofOption o : Reader α β) [] v := by
  rw [h]
  exact decodes_pure v

theorem decodes_repeated (r : Reader α β) (encode : β → List α) (vs : List β)
    (h : ∀ v ∈ vs, Decodes r (encode v) v) :
    Decodes (repeated r vs.length) (vs.flatMap encode) vs := by
  induction vs with
  | nil => exact decodes_pure []
  | cons v vs ih =>
    rw [List.flatMap_cons]
    apply decodes_bind (h v (by simp))
    apply decodes_return (ih fun w hw => h w (by simp [hw]))
    exact decodes_pure (v::vs)

/-- A reader that decodes a text finds it at the start of a buffer. -/
theorem decodes_start {r : Reader α β} {text : List α} {v : β} (h : Decodes r text v)
    (after : List α) : r (text++after) 0 = some (v, text.length) := by
  have := h [] after
  simpa using this

theorem decodes_within {r : Reader α β} {text : List α} {v : β} (h : Decodes r text v)
    (after : List α) : Decodes (within (text++after) r) [] v := by
  apply decodes_of_option
  rw [decodes_start h]
  rfl

/-- What a reader gives when it is run again and again until it fails. -/
def drain (r : Reader α (List β)) : ℕ → List α → ℕ → List β
  | 0, _, _ => []
  | n+1, buffer, desp =>
    match r buffer desp with
    | none => []
    | some (vs, desp') => vs++drain r n buffer desp'

def outputs (r : Reader α (List β)) (buffer : List α) (desp : ℕ) : List β :=
  drain r (buffer.length+1) buffer desp

/-- A reader that passes `k` cells at least, and never the end of the buffer. -/
def Advances (k : ℕ) (r : Reader α β) : Prop :=
  ∀ buffer desp v desp', r buffer desp = some (v, desp') →
    desp+k ≤ desp' ∧ desp' ≤ max desp buffer.length

def Emits (r : Reader α (List β)) (text : List α) (vs : List β) : Prop :=
  ∀ before after, outputs r (before++(text++after)) before.length =
    vs++outputs r (before++(text++after)) (before.length+text.length)

theorem advances_cells (n : ℕ) : Advances n (cells n : Reader α (List α)) := by
  intro buffer desp v desp' h
  unfold cells at h
  split_ifs at h
  cases h
  constructor
  · exact le_rfl
  · omega

theorem advances_pure (v : β) : Advances 0 (pure v : Reader α β) := by
  intro buffer desp w desp' h
  cases h
  constructor
  · exact le_rfl
  · exact le_max_left desp buffer.length

theorem advances_of_option (o : Option β) : Advances 0 (ofOption o : Reader α β) := by
  cases o with
  | none =>
    intro buffer desp w desp' h
    cases h
  | some v => exact advances_pure v

theorem advances_bind {k l : ℕ} {r : Reader α β} {f : β → Reader α γ} (h : Advances k r)
    (h' : ∀ v, Advances l (f v)) : Advances (k+l) (r >>= f) := by
  intro buffer desp w desp' hrun
  change (r buffer desp).bind (fun p => f p.1 buffer p.2) = some (w, desp') at hrun
  cases hfirst : r buffer desp with
  | none =>
    rw [hfirst] at hrun
    cases hrun
  | some p =>
    rw [hfirst] at hrun
    have hf := h buffer desp p.1 p.2 hfirst
    have ht := h' p.1 buffer p.2 w desp' hrun
    omega

theorem advances_weaken {k l : ℕ} {r : Reader α β} (h : Advances k r) (hl : l ≤ k) :
    Advances l r := by
  intro buffer desp w desp' hrun
  have := h buffer desp w desp' hrun
  omega

section Draining
variable {r : Reader α (List β)} (hr : Advances 1 r)
include hr

theorem drain_enough (buffer : List α) (n m desp : ℕ) (hn : buffer.length < desp+n)
    (hm : buffer.length < desp+m) : drain r n buffer desp = drain r m buffer desp := by
  induction n generalizing m desp with
  | zero =>
    cases m with
    | zero => rfl
    | succ m =>
      cases h : r buffer desp with
      | none => simp [drain, h]
      | some p =>
        have := hr buffer desp p.1 p.2 h
        omega
  | succ n ih =>
    cases m with
    | zero =>
      cases h : r buffer desp with
      | none => simp [drain, h]
      | some p =>
        have := hr buffer desp p.1 p.2 h
        omega
    | succ m =>
      cases h : r buffer desp with
      | none => simp [drain, h]
      | some p =>
        have hp := hr buffer desp p.1 p.2 h
        simp only [drain, h]
        rw [ih m p.2 (by omega) (by omega)]

theorem outputs_some {buffer : List α} {desp desp' : ℕ} {vs : List β}
    (h : r buffer desp = some (vs, desp')) :
    outputs r buffer desp = vs++outputs r buffer desp' := by
  have hp := hr buffer desp vs desp' h
  rw [outputs, drain, h]
  show vs++drain r buffer.length buffer desp' = vs++outputs r buffer desp'
  rw [outputs, drain_enough hr buffer buffer.length (buffer.length+1) desp' (by omega) (by omega)]

theorem outputs_end (buffer : List α) : outputs r buffer buffer.length = [] := by
  cases h : r buffer buffer.length with
  | none => simp [outputs, drain, h]
  | some p =>
    have := hr buffer buffer.length p.1 p.2 h
    omega

theorem emits_decodes {text : List α} {vs : List β} (h : Decodes r text vs) :
    Emits r text vs := by
  intro before after
  exact outputs_some hr (h before after)

omit hr in
theorem emits_nil : Emits r [] [] := by
  intro before after
  rfl

omit hr in
theorem emits_append {text text' : List α} {vs vs' : List β} (h : Emits r text vs)
    (h' : Emits r text' vs') : Emits r (text++text') (vs++vs') := by
  intro before after
  have hfirst := h before (text'++after)
  have hthen := h' (before++text) after
  simp only [List.append_assoc, List.length_append] at hfirst hthen ⊢
  rw [hfirst, hthen, Nat.add_assoc]

omit hr in
theorem emits_start {text : List α} {vs : List β} (h : Emits r text vs) (after : List α) :
    outputs r (text++after) 0 = vs++outputs r (text++after) text.length := by
  have := h [] after
  rwa [List.nil_append, List.length_nil, Nat.zero_add] at this

omit hr in
theorem emits_flat_map {γ : Type} (encode : γ → List α) (emit : γ → List β) (xs : List γ)
    (h : ∀ x ∈ xs, Emits r (encode x) (emit x)) :
    Emits r (xs.flatMap encode) (xs.flatMap emit) := by
  induction xs with
  | nil => exact emits_nil
  | cons x xs ih =>
    rw [List.flatMap_cons, List.flatMap_cons]
    apply emits_append (h x (by simp))
    exact ih fun y hy => h y (by simp [hy])

theorem outputs_emitted {text : List α} {vs : List β} (h : Emits r text vs) :
    outputs r text 0 = vs := by
  have := emits_start h []
  rw [List.append_nil] at this
  rw [this, outputs_end hr, List.append_nil]

end Draining

theorem outputs_none {r : Reader α (List β)} {buffer : List α} {desp : ℕ}
    (h : r buffer desp = none) : outputs r buffer desp = [] := by
  simp [outputs, drain, h]

end Geck.OffsetReader
