import Mathlib

/-!
# Stores divided into blocks, and bit arrays

A store maps addresses to cells and is read and written in blocks of one
size. Distinct blocks do not overlap, whatever the cells are. Lists and bit
arrays are indexed by integers, as their C interfaces are: an index outside
the list has no element, and a bit outside the array cannot be written.
-/

set_option autoImplicit false

namespace Geck.BlockStore

variable {α : Type*}

def block (size : ℕ) (s : ℕ → α) (i : ℕ) : ℕ → α := fun k => s (i*size+k)

def putBlock (size : ℕ) (s : ℕ → α) (i : ℕ) (p : ℕ → α) : ℕ → α :=
  fun a => if i*size ≤ a ∧ a < i*size+size then p (a-i*size) else s a

theorem block_put_same (size : ℕ) (s : ℕ → α) (i : ℕ) (p : ℕ → α) (k : ℕ) (hk : k < size) :
    block size (putBlock size s i p) i k = p k := by
  simp [block, putBlock, hk]

theorem block_address (size i j k : ℕ) (hk : k < size)
    (h : i*size ≤ j*size+k ∧ j*size+k < i*size+size) : i = j := by
  obtain hij | hij | hij := Nat.lt_trichotomy i j
  · have := Nat.mul_le_mul_right size hij
    rw [Nat.succ_mul] at this
    omega
  · exact hij
  · have := Nat.mul_le_mul_right size hij
    rw [Nat.succ_mul] at this
    omega

theorem block_put_other (size : ℕ) (s : ℕ → α) (i j : ℕ) (p : ℕ → α) (k : ℕ) (hk : k < size)
    (hij : i ≠ j) : block size (putBlock size s i p) j k = block size s j k := by
  unfold block putBlock
  rw [if_neg fun h => hij (block_address size i j k hk h)]

def listGet (l : List α) (i : ℤ) : Option α := if 0 ≤ i then l[i.toNat]? else none

theorem list_get_nat (l : List α) (n : ℕ) : listGet l n = l[n]? := by simp [listGet]

theorem list_get_some {l : List α} {i : ℤ} {x : α} (h : listGet l i = some x) :
    0 ≤ i ∧ l[i.toNat]? = some x := by
  unfold listGet at h
  split at h
  · exact ⟨by assumption, h⟩
  · simp at h

theorem list_get_lt {l : List α} {i : ℤ} {x : α} (h : listGet l i = some x) :
    0 ≤ i ∧ i < l.length := by
  obtain ⟨h0, hx⟩ := list_get_some h
  have := (List.getElem?_eq_some_iff.mp hx).1
  omega

theorem list_get_mem {l : List α} {i : ℤ} {x : α} (h : listGet l i = some x) : x ∈ l :=
  List.mem_of_getElem? (list_get_some h).2

/-- The bit at an index of the array is set. -/
def Marked (b : List Bool) (i : ℤ) : Prop := listGet b i = some true

instance (b : List Bool) (i : ℤ) : Decidable (Marked b i) :=
  inferInstanceAs (Decidable (_ = _))

def writeBit (b : List Bool) (i : ℤ) (v : Bool) : Option (List Bool) :=
  if 0 ≤ i ∧ i < b.length then some (b.set i.toNat v) else none

theorem marked_range {b : List Bool} {i : ℤ} (h : Marked b i) : 0 ≤ i ∧ i < b.length :=
  list_get_lt h

theorem write_bit_length {b b' : List Bool} {i : ℤ} {v : Bool} (h : writeBit b i v = some b') :
    b'.length = b.length := by
  unfold writeBit at h
  split at h
  · obtain rfl := Option.some.inj h
    exact List.length_set ..
  · simp at h

theorem write_bit_range {b b' : List Bool} {i : ℤ} {v : Bool} (h : writeBit b i v = some b') :
    0 ≤ i ∧ i < b.length := by
  unfold writeBit at h
  split at h
  · assumption
  · simp at h

theorem write_bit_total (b : List Bool) (i : ℤ) (v : Bool) (h0 : 0 ≤ i) (hi : i < b.length) :
    ∃ b', writeBit b i v = some b' := by
  simp [writeBit, h0, hi]

theorem write_bit_get {b b' : List Bool} {i : ℤ} {v : Bool} (h : writeBit b i v = some b')
    (j : ℤ) : listGet b' j = if j = i then some v else listGet b j := by
  obtain ⟨h0, hi⟩ := write_bit_range h
  simp only [writeBit, h0, hi, and_self, if_true, Option.some.injEq] at h
  subst h
  by_cases hj : j = i
  · subst hj
    have : j.toNat < b.length := by omega
    simp [listGet, h0, this]
  · simp only [listGet, hj, if_false]
    split
    · have hne : i.toNat ≠ j.toNat := by omega
      simp [List.getElem?_set_ne hne]
    · rfl

theorem write_bit_marked {b b' : List Bool} {i : ℤ} {v : Bool} (h : writeBit b i v = some b')
    (j : ℤ) : Marked b' j ↔ if j = i then v = true else Marked b j := by
  unfold Marked
  rw [write_bit_get h]
  split <;> simp

theorem fresh_marked (n : ℕ) (i : ℤ) : ¬Marked (List.replicate n false) i := by
  intro h
  have := list_get_mem h
  simp at this

end Geck.BlockStore
