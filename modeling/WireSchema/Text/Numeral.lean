/-!
# Numerals

Decimal numerals as they are read, and hexadecimal numerals of a fixed number of digits as they
are written. `decimal?` reads any number of leading zeros, and reads the digits of a number as
that number; `upperHex` writes the lowest digits of a number, most significant first.
-/

namespace WireSchema.Text

/-- The value of a text that is one ASCII digit or more and nothing else. -/
def decimal? (s : List Char) : Option Nat :=
  if !s.isEmpty && s.all Char.isDigit then some (Nat.ofDigitChars 10 s 0) else none

/-- A hexadecimal digit, above nine as a small letter. -/
def lowerHexDigit (n : Nat) : Char := Char.ofNat (if n < 10 then 0x30 + n else 0x57 + n)

/-- A hexadecimal digit, above nine as a capital letter. -/
def upperHexDigit (n : Nat) : Char := Char.ofNat (if n < 10 then 0x30 + n else 0x37 + n)

/-- The lowest `width` hexadecimal digits of a number, capital letters above nine. -/
def upperHex : (width : Nat) → Nat → List Char
  | 0, _ => []
  | width + 1, n => upperHex width (n / 16) ++ [upperHexDigit (n % 16)]

/-- A fixed-width numeral has its width. -/
theorem length_upperHex (width n : Nat) : (upperHex width n).length = width := by
  induction width generalizing n with
  | zero => rfl
  | succ width ih => simp [upperHex, ih]

/-- The decimal digits of a number are read as that number. -/
theorem decimal?_toDigits (n : Nat) : decimal? (Nat.toDigits 10 n) = some n := by
  have hd : (Nat.toDigits 10 n).all Char.isDigit = true :=
    List.all_eq_true.mpr fun _ hc ↦ Nat.isDigit_of_mem_toDigits (by decide) (by decide) hc
  have he : Nat.toDigits 10 n ≠ [] := Nat.toDigits_ne_nil
  simp [decimal?, hd, he]

end WireSchema.Text
