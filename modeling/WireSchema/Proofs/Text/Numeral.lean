import Mathlib.Algebra.Group.Nat.Defs
import WireSchema.Proofs.Text.Scan
import WireSchema.Schema.Check

/-!
# Numerals that are read back

A number that is written is read as that number: in decimal digits as an array length, and in
hexadecimal digits as far as their width goes. `upperHexValue?` has a value only if all characters
are digits or the capital letters of hexadecimal digits.
-/

namespace WireSchema.Text

/-- The value of a hexadecimal digit, above nine a capital letter. -/
def upperHexDigitValue? (c : Char) : Option Nat :=
  if c.isDigit then some (c.toNat - 0x30)
  else if 'A' ≤ c ∧ c ≤ 'F' then some (c.toNat - 0x37)
  else none

/-- Whether the character is a hexadecimal digit, above nine a capital letter. -/
def isUpperHexDigit (c : Char) : Bool := (upperHexDigitValue? c).isSome

/-- The value of hexadecimal digits, above nine capital letters. -/
def upperHexValue? (s : List Char) : Option Nat :=
  s.foldlM (fun n c ↦ (upperHexDigitValue? c).map (16 * n + ·)) 0

/-- A digit more is a place more. -/
theorem upperHexValue?_append_singleton (s : List Char) (c : Char) :
    upperHexValue? (s ++ [c]) =
      (upperHexValue? s).bind fun n ↦ (upperHexDigitValue? c).map (16 * n + ·) := by
  simp only [upperHexValue?, List.foldlM_append, List.foldlM_cons, List.foldlM_nil,
    Option.bind_eq_bind, Option.pure_def, Option.bind_fun_some]

private theorem upperHexDigitValue?_upperHexDigit :
    ∀ d < 16, upperHexDigitValue? (upperHexDigit d) = some d := by
  decide

/-- The digits of a fixed-width numeral are hexadecimal digits. -/
theorem isUpperHexDigit_of_mem_upperHex {width n : Nat} :
    ∀ c ∈ upperHex width n, isUpperHexDigit c = true := by
  induction width generalizing n with
  | zero => simp [upperHex]
  | succ width ih =>
    rw [upperHex, List.forall_mem_append, List.forall_mem_singleton]
    refine ⟨ih, ?_⟩
    rw [isUpperHexDigit, upperHexDigitValue?_upperHexDigit _ (Nat.mod_lt _ (by decide)),
      Option.isSome_some]

/-- A fixed-width numeral is read as the number up to what its width can tell. -/
theorem upperHexValue?_upperHex (width n : Nat) :
    upperHexValue? (upperHex width n) = some (n % 16 ^ width) := by
  induction width generalizing n with
  | zero => rw [Nat.pow_zero, Nat.mod_one]; rfl
  | succ width ih =>
    have hdigit := upperHexDigitValue?_upperHexDigit _ (Nat.mod_lt n (by decide))
    have hvalue : 16 * (n / 16 % 16 ^ width) + n % 16 = n % 16 ^ (width + 1) := by
      rw [Nat.pow_succ', Nat.mod_mul, Nat.add_comm]
    rw [upperHex, upperHexValue?_append_singleton, ih, Option.bind_some, hdigit, Option.map_some,
      hvalue]

/-- The eight digits of a word are read as that word. -/
theorem upperHexValue?_word (n : UInt32) :
    upperHexValue? (upperHex 8 n.toNat) = some n.toNat := by
  have hlt : n.toNat < 16 ^ 8 := n.toNat_lt_size
  rw [upperHexValue?_upperHex, Nat.mod_eq_of_lt hlt]

/-- The eight digits of a word are those of no other one. -/
theorem eq_of_upperHex_eq {n n' : UInt32} (h : upperHex 8 n.toNat = upperHex 8 n'.toNat) :
    n = n' := by
  have hvalue := upperHexValue?_word n
  rw [h, upperHexValue?_word, Option.some.injEq] at hvalue
  exact UInt32.toNat_inj.mp hvalue.symm

/-- The decimal digits of a number are digits. -/
theorem isDigit_of_mem_toString {n : Nat} : ∀ c ∈ (toString n).toList, c.isDigit = true := by
  intro c hc
  rw [Nat.toString_eq_repr, Nat.toList_repr] at hc
  exact Nat.isDigit_of_mem_toDigits (by decide) (by decide) hc

/-- A number as a word of 32 bits, if it is one. -/
def exactWord? (n : Nat) : Option UInt32 :=
  if n < UInt32.size then some (UInt32.ofNat n) else none

/-- A number is answered exactly as the word that it is. -/
theorem exactWord?_eq_some_iff {k : Nat} {n : UInt32} : exactWord? k = some n ↔ k = n.toNat := by
  unfold exactWord?
  constructor
  · intro h
    split at h
    · next hlt =>
      cases h
      exact (UInt32.toNat_ofNat_of_lt' hlt).symm
    · cases h
  · rintro rfl
    rw [if_pos n.toNat_lt_size, UInt32.ofNat_toNat]

/-- Digits are read as the word that their number is, and as nothing if it is none. -/
theorem word32?_of_digits {digits : List Char} (hne : digits ≠ [])
    (hd : ∀ c ∈ digits, c.isDigit = true) :
    word32? digits = exactWord? (Nat.ofDigitChars 10 digits 0) := by
  have hplus : skipChar? '+' digits = none := by
    cases hs : skipChar? '+' digits with
    | none => rfl
    | some r =>
      rw [skipChar?_eq_some_iff] at hs
      exact absurd (hd '+' (hs ▸ List.mem_cons_self)) (by decide)
  have hdecimal : decimal? digits = some (Nat.ofDigitChars 10 digits 0) :=
    decimal?_eq_some_iff.mpr ⟨hne, hd, rfl⟩
  simp only [word32?, hplus, hdecimal, exactWord?]

/-- The decimal digits of a word are read as that word. -/
theorem word32?_toString (n : UInt32) : word32? (toString n.toNat).toList = some n := by
  have hdigits : (toString n.toNat).toList = Nat.toDigits 10 n.toNat := by
    rw [Nat.toString_eq_repr, Nat.toList_repr]
  rw [word32?_of_digits (hdigits ▸ Nat.toDigits_ne_nil) isDigit_of_mem_toString, hdigits,
    Nat.ofDigitChars_ten_toDigits, exactWord?_eq_some_iff]

/-- The decimal digits of a word are those of no other one. -/
theorem toString_toNat_inj {n n' : UInt32} : toString n.toNat = toString n'.toNat ↔ n = n' := by
  constructor
  · intro h
    have hread := word32?_toString n
    rw [h, word32?_toString] at hread
    exact (Option.some.inj hread).symm
  · exact congrArg fun n : UInt32 ↦ toString n.toNat

end WireSchema.Text
