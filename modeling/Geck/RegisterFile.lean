import Geck.CpuExecution

/-!
# Register names and decimal texts

The four registers as a file indexed by their names, and what `atoi` reads of
the texts that `string_itoa` prints and that programs carry.
-/

set_option autoImplicit false

namespace Geck.RegisterFile
open Geck.SharedPcb Geck.CpuExecution

inductive Register where
  | ax
  | bx
  | cx
  | dx
  deriving DecidableEq, Repr

instance : Fintype Register where
  elems := {.ax, .bx, .cx, .dx}
  complete := by
    intro register
    cases register <;> decide

def registerName : Register → String
  | .ax => "AX"
  | .bx => "BX"
  | .cx => "CX"
  | .dx => "DX"

def registerNamed (name : String) : Option Register :=
  if name = "AX" then some .ax
  else if name = "BX" then some .bx
  else if name = "CX" then some .cx
  else if name = "DX" then some .dx
  else none

abbrev File := Register → UInt32

def file (r : Registers) : File
  | .ax => r.ax
  | .bx => r.bx
  | .cx => r.cx
  | .dx => r.dx

def assign (f : File) (name : String) (value : UInt32) : File :=
  match registerNamed name with
  | some register => Function.update f register value
  | none => f

theorem modify_register_file (r : Registers) (name : String) (f : UInt32 → UInt32) :
    file (modifyRegister r name f) = match registerNamed name with
      | some register => Function.update (file r) register (f (file r register))
      | none => file r := by
  ext register
  by_cases ha : name = "AX"
  · subst ha
    cases register <;> rfl
  by_cases hb : name = "BX"
  · subst hb
    cases register <;> rfl
  by_cases hc : name = "CX"
  · subst hc
    cases register <;> rfl
  by_cases hd : name = "DX"
  · subst hd
    cases register <;> rfl
  simp [modifyRegister, registerNamed, ha, hb, hc, hd]

theorem find_value_of_register_file (r : Registers) (name : String) :
    findValueOfRegister r name = match registerNamed name with
      | some register => file r register
      | none => 0 := by
  by_cases ha : name = "AX"
  · subst ha
    rfl
  by_cases hb : name = "BX"
  · subst hb
    rfl
  by_cases hc : name = "CX"
  · subst hc
    rfl
  by_cases hd : name = "DX"
  · subst hd
    rfl
  simp [findValueOfRegister, registerNamed, ha, hb, hc, hd]

theorem store_value_in_register_file (r : Registers) (name : String) (value : UInt32) :
    file (storeValueInRegister r name value) = assign (file r) name value :=
  modify_register_file r name fun _ => value

/-- The integer that a text denotes: `strtol` without its clamp. -/
def numeral : List Char → ℤ
  | [] => 0
  | c::cs =>
    if isSpace c then numeral cs
    else if c = '-' then -(digits cs 0 : ℤ)
    else if c = '+' then (digits cs 0 : ℤ)
    else (digits (c::cs) 0 : ℤ)

theorem strtol_numeral (cs : List Char) (h : -2^63 ≤ numeral cs ∧ numeral cs < 2^63) :
    strtol cs = numeral cs := by
  induction cs with
  | nil => rfl
  | cons c cs ih =>
    unfold strtol numeral
    unfold numeral at h
    by_cases hb : isSpace c
    · rw [if_pos hb] at h ⊢
      rw [if_pos hb]
      exact ih h
    rw [if_neg hb] at h ⊢
    rw [if_neg hb]
    by_cases hm : c = '-'
    · rw [if_pos hm] at h ⊢
      rw [if_pos hm]
      exact max_eq_left h.1
    rw [if_neg hm] at h ⊢
    rw [if_neg hm]
    by_cases hp : c = '+'
    · rw [if_pos hp] at h ⊢
      rw [if_pos hp]
      exact min_eq_left (by omega)
    · rw [if_neg hp] at h ⊢
      rw [if_neg hp]
      exact min_eq_left (by omega)

theorem of_int_bmod (z : ℤ) : UInt32.ofInt (z.bmod (2^32)) = UInt32.ofInt z := by
  show UInt32.ofNat (z.bmod (2^32) % 2^32).toNat = UInt32.ofNat (z % 2^32).toNat
  have h : z.bmod (2^32) % 2^32 = z % 2^32 := Int.bmod_emod
  rw [h]

theorem of_int_to_nat (v : UInt32) : UInt32.ofInt (v.toNat : ℤ) = v := by
  show UInt32.ofNat ((v.toNat : ℤ) % 2^32).toNat = v
  have hv := v.toNat_lt
  have h : ((v.toNat : ℤ) % 2^32).toNat = v.toNat := by omega
  rw [h, UInt32.ofNat_toNat]

theorem digits_of_digits (cs : List Char) (h : ∀ c ∈ cs, c.isDigit = true) (n : ℕ) :
    digits cs n = Nat.ofDigitChars 10 cs n := by
  induction cs generalizing n with
  | nil => rfl
  | cons c cs ih =>
    rw [digits, if_pos (h c (by simp)), Nat.ofDigitChars_cons]
    exact ih (fun c hc => h c (by simp [hc])) _

theorem digits_repr (n : ℕ) : digits (Nat.toDigits 10 n) 0 = n := by
  rw [digits_of_digits _ (fun c hc => Nat.isDigit_of_mem_toDigits (by decide) (by decide) hc)]
  exact Nat.ofDigitChars_ten_toDigits

theorem digit_not_space {c : Char} (h : c.isDigit = true) : isSpace c = false := by
  have hcode : 48 ≤ c.toNat := by
    simp only [Char.isDigit, Bool.and_eq_true, decide_eq_true_eq] at h
    exact h.1
  by_contra hne
  simp only [isSpace, Bool.not_eq_false, Bool.or_eq_true, Bool.and_eq_true, decide_eq_true_eq] at hne
  rcases hne with rfl | ⟨-, hle⟩
  · simp at h
  · omega

theorem numeral_repr (n : ℕ) : numeral (Nat.toDigits 10 n) = n := by
  obtain ⟨c, cs, hcs⟩ := List.exists_cons_of_ne_nil (Nat.toDigits_ne_nil (n := n) (b := 10))
  have hc : c.isDigit = true :=
    Nat.isDigit_of_mem_toDigits (b := 10) (n := n) (by decide) (by decide) (by simp [hcs])
  have hb : isSpace c = false := digit_not_space hc
  have hm : c ≠ '-' := by
    rintro rfl
    simp at hc
  have hp : c ≠ '+' := by
    rintro rfl
    simp at hc
  rw [hcs, numeral, hb, if_neg hm, if_neg hp, ← hcs, digits_repr]
  rfl

theorem numeral_to_string (z : ℤ) : numeral (toString z).toList = z := by
  rw [Int.toString_eq_repr, Int.repr_eq_if]
  split
  · rw [Nat.toList_repr, numeral_repr]
    omega
  · rw [String.toList_append, Nat.toList_repr]
    show -(digits (Nat.toDigits 10 (-z).toNat) 0 : ℤ) = z
    rw [digits_repr]
    omega

/-- `ADD` passes the source through its decimal text, which loses nothing. -/
theorem atoi_string_itoa (v : UInt32) : UInt32.ofInt (atoi (stringItoa v)) = v := by
  have hv := v.toNat_lt
  have hlo : -(2^31) ≤ ((v.toNat : ℤ).bmod (2^32)) := Int.le_bmod (by decide)
  have hhi : ((v.toNat : ℤ).bmod (2^32)) < 2^31 := Int.bmod_lt (by decide)
  have hs : strtol (stringItoa v).toList = (v.toNat : ℤ).bmod (2^32) := by
    rw [stringItoa, strtol_numeral _ (by rw [numeral_to_string]; omega), numeral_to_string]
  rw [atoi, hs, of_int_bmod, of_int_bmod, of_int_to_nat]

theorem add_value_to_register_file (r : Registers) (name value : String) :
    file (addValueToRegister r name value) = match registerNamed name with
      | some register => Function.update (file r) register
          (file r register+UInt32.ofInt (atoi value))
      | none => file r :=
  modify_register_file r name fun v => v+UInt32.ofInt (atoi value)

theorem add_two_registers_file (r : Registers) (destination source : String) :
    file (addTwoRegisters r destination source) =
      match registerNamed destination, registerNamed source with
      | some d, some s => Function.update (file r) d (file r d+file r s)
      | _, _ => file r := by
  rw [addTwoRegisters, add_value_to_register_file, atoi_string_itoa, find_value_of_register_file]
  cases registerNamed destination with
  | none => rfl
  | some d =>
    cases registerNamed source with
    | none => simp
    | some s => rfl

theorem register_named_name (register : Register) :
    registerNamed (registerName register) = some register := by
  cases register <;> rfl

/-- The registers as numbers. -/
def numbers (r : Registers) (register : Register) : ℕ := (file r register).toNat

/-- Unsigned addition of 32 bits. -/
def plainAdd (v : Register → ℕ) (destination source : Register) : Register → ℕ :=
  Function.update v destination ((v destination+v source) % 2^32)

def addRegisters (r : Registers) (destination source : Register) : Registers :=
  addTwoRegisters r (registerName destination) (registerName source)

theorem add_two_registers_plain (r : Registers) (destination source : Register) :
    numbers (addRegisters r destination source) = plainAdd (numbers r) destination source := by
  have hfile : file (addRegisters r destination source) =
      Function.update (file r) destination (file r destination+file r source) := by
    rw [addRegisters, add_two_registers_file, register_named_name, register_named_name]
  ext register
  unfold numbers plainAdd
  rw [hfile]
  by_cases h : register = destination
  · subst h
    simp [UInt32.toNat_add]
  · simp [h]

/-- `ADD` adds modulo 2^32 for all contents, and so does every sequence of them. -/
theorem sums_exact :
    (∀ (r : Registers) (destination source : Register),
      numbers (addRegisters r destination source) = plainAdd (numbers r) destination source) ∧
    ∀ (adds : List (Register × Register)) (r : Registers),
      numbers (adds.foldl (fun r add => addRegisters r add.1 add.2) r) =
        adds.foldl (fun v add => plainAdd v add.1 add.2) (numbers r) := by
  refine ⟨add_two_registers_plain, fun adds => ?_⟩
  induction adds with
  | nil => exact fun r => rfl
  | cons add adds ih =>
    intro r
    rw [List.foldl_cons, List.foldl_cons, ih, add_two_registers_plain]

/-- Twice 2^31 is nothing. -/
example : numbers (addRegisters ⟨5, 2147483648, 7, 9⟩ .bx .bx) .bx = 0 := by decide +kernel

end Geck.RegisterFile
