import Mathlib.Data.List.Induction
import Mathlib.Data.Nat.Digits.Defs
import WireSchema.Proofs.Text.Numeral

/-!
# Decimal values

The number that digits mean in base ten, whatever its size, and a word of 32 bits that is read digit
by digit. `decimalValue` counts places from the last digit. `readWord?` keeps a word all the way and
gives up at the first product or sum that is none. This may happen long before the last digit, but
the digits that follow cannot make the number smaller again, so what is read is what `word32?` reads
from the exact number.
-/

namespace WireSchema.Text

/-! ### Values -/

/-- The number that a digit means. -/
def digitValue (c : Char) : Nat := c.toNat - '0'.toNat

/-- The number that digits mean in base ten: the last one counts ones, the one before it tens. -/
def decimalValue (digits : List Char) : Nat := Nat.ofDigits 10 (digits.reverse.map digitValue)

/-- A digit more is a place more. -/
theorem decimalValue_append_singleton (digits : List Char) (c : Char) :
    decimalValue (digits ++ [c]) = 10 * decimalValue digits + digitValue c := by
  rw [decimalValue, List.reverse_append, List.reverse_singleton, List.singleton_append,
    List.map_cons, Nat.ofDigits_cons, Nat.add_comm]
  rfl

/-- Counting up from the first digit gives the value. -/
theorem ofDigitChars_eq_decimalValue (digits : List Char) :
    Nat.ofDigitChars 10 digits 0 = decimalValue digits := by
  induction digits using List.reverseRecOn with
  | nil => rfl
  | append_singleton digits c ih =>
    rw [Nat.ofDigitChars_append, Nat.ofDigitChars_cons, Nat.ofDigitChars_nil, ih,
      decimalValue_append_singleton]
    rfl

/-- Zeros in front do not count. -/
theorem decimalValue_zeros_append (zeros : Nat) (digits : List Char) :
    decimalValue (List.replicate zeros '0' ++ digits) = decimalValue digits := by
  rw [← ofDigitChars_eq_decimalValue, Nat.ofDigitChars_append, Nat.ofDigitChars_replicate_zero,
    Nat.mul_zero, ofDigitChars_eq_decimalValue]

/-- More digits do not make a number smaller. -/
theorem le_ofDigitChars (digits : List Char) (n : Nat) : n ≤ Nat.ofDigitChars 10 digits n := by
  induction digits generalizing n with
  | nil => exact Nat.le_refl n
  | cons c digits ih =>
    rw [Nat.ofDigitChars_cons]
    have hplace := ih (10 * n + (c.toNat - '0'.toNat))
    omega

/-! ### Words -/

/-- A word with one digit more, as long as the product and the sum are words. -/
def readDigit? (n : UInt32) (c : Char) : Option UInt32 :=
  if c.isDigit then
    (exactWord? (n.toNat * 10)).bind fun tens ↦ exactWord? (tens.toNat + digitValue c)
  else none

/-- The word that digits mean, read from the first one on. -/
def readWord? (digits : List Char) : Option UInt32 := digits.foldlM readDigit? 0

/-- One digit more is read exactly if the number is a word still. -/
theorem readDigit?_eq_some_iff {n m : UInt32} {c : Char} (hc : c.isDigit = true) :
    readDigit? n c = some m ↔ 10 * n.toNat + digitValue c = m.toNat := by
  rw [readDigit?, if_pos hc, Option.bind_eq_some_iff]
  simp only [exactWord?_eq_some_iff]
  constructor
  · rintro ⟨tens, htens, h⟩
    omega
  · intro h
    have hlt := m.toNat_lt_size
    have htens : (UInt32.ofNat (n.toNat * 10)).toNat = n.toNat * 10 :=
      UInt32.toNat_ofNat_of_lt' (by omega)
    exact ⟨_, htens.symm, by omega⟩

/-- Digits are read behind a word exactly if the number that comes of both is a word. -/
theorem foldlM_readDigit?_eq_some_iff {digits : List Char}
    (hd : ∀ c ∈ digits, c.isDigit = true) {n m : UInt32} :
    digits.foldlM readDigit? n = some m ↔ Nat.ofDigitChars 10 digits n.toNat = m.toNat := by
  induction digits generalizing n with
  | nil =>
    rw [List.foldlM_nil, Nat.ofDigitChars_nil, Option.pure_def, Option.some_inj, UInt32.toNat_inj]
  | cons c digits ih =>
    obtain ⟨hc, hd⟩ := List.forall_mem_cons.mp hd
    rw [List.foldlM_cons, Option.bind_eq_bind, Option.bind_eq_some_iff, Nat.ofDigitChars_cons]
    simp only [readDigit?_eq_some_iff hc, ih hd]
    change _ ↔ Nat.ofDigitChars 10 digits (10 * n.toNat + digitValue c) = m.toNat
    constructor
    · rintro ⟨k, hk, hm⟩
      rwa [hk]
    · intro hm
      -- what is read so far is a word, since the digits that follow only make the number larger
      have hle := le_ofDigitChars digits (10 * n.toNat + digitValue c)
      have hword : (UInt32.ofNat (10 * n.toNat + digitValue c)).toNat =
          10 * n.toNat + digitValue c :=
        UInt32.toNat_ofNat_of_lt' (Nat.lt_of_le_of_lt (hm ▸ hle) m.toNat_lt_size)
      exact ⟨_, hword.symm, by rw [hword, hm]⟩

/-- A word that is read digit by digit is the one that the digits mean as a whole. -/
theorem readWord?_eq_word32? {digits : List Char} (hne : digits ≠ [])
    (hd : ∀ c ∈ digits, c.isDigit = true) : readWord? digits = word32? digits := by
  apply Option.ext
  intro n
  rw [word32?_of_digits hne hd, exactWord?_eq_some_iff, readWord?,
    foldlM_readDigit?_eq_some_iff hd, UInt32.toNat_zero]

end WireSchema.Text
