import Mathlib.Algebra.Group.Nat.Defs
import WireSchema.Wire.Scalar

/-!
# Scalars as numbers

Every scalar value is a number: an integer is itself, a boolean zero or one, and a floating-point
number its bits. Its bytes are the digits of that number to the base 256, most significant first;
division rounds down, so a negative number has the digits of its two's complement.
-/

namespace WireSchema

namespace BigEndian

/-- There is always one string of bytes. -/
theorem capacity_pos (n : Nat) : 0 < capacity n := by
  induction n with
  | zero => decide
  | succ n ih =>
    rw [capacity]
    omega

/-- Strings of bytes are told apart part by part. -/
theorem capacity_add (m n : Nat) : capacity (m + n) = capacity m * capacity n := by
  induction m with
  | zero => rw [Nat.zero_add, capacity, Nat.one_mul]
  | succ m ih => rw [Nat.succ_add, capacity, ih, capacity, Nat.mul_assoc]

/-- Each byte of a number is its digit at the place of the byte, counted from the last one. -/
theorem toNat_getElem_encode {n i : Nat} (x : Nat) (h : i < (encode n x).length) :
    (encode n x)[i].toNat = x / capacity (n - 1 - i) % 256 := by
  induction n generalizing x with
  | zero => exact absurd h (Nat.not_lt_zero i)
  | succ n ih =>
    rw [length_encode] at h
    simp only [encode]
    by_cases hi : i < n
    · have hplace : n + 1 - 1 - i = (n - 1 - i) + 1 := by omega
      rw [List.getElem_append_left (by rwa [length_encode]), ih, Nat.div_div_eq_div_mul, hplace,
        capacity]
    · have hlast : i = n := by omega
      subst hlast
      rw [List.getElem_append_right (Nat.le_of_eq (length_encode _ _))]
      simp [length_encode, capacity]

/-- The lower digits do not show in a quotient. -/
theorem emod_mul_ediv (x : Int) {m : Int} (hm : 0 < m) (c : Int) :
    x % (m * c) / m = x / m % c := by
  have hx : x % (m * c) = x + m * -(c * (x / (m * c))) := by
    rw [Int.emod_def, Int.mul_neg, ← Int.mul_assoc, Int.sub_eq_add_neg]
  have hq : x / (m * c) = x / m / c := (Int.ediv_ediv_of_nonneg (Int.le_of_lt hm)).symm
  rw [hx, Int.add_mul_ediv_left _ _ (Int.ne_of_gt hm), hq, Int.emod_def, Int.sub_eq_add_neg]

end BigEndian

namespace ScalarType

open BigEndian

/-- The number that a value is: the integer itself, zero or one for a boolean, the bits for floating
point. -/
def number : (t : ScalarType) → t.Value → Int
  | uint8, v => v.toNat
  | int8, v => v.toInt
  | uint16, v => v.toNat
  | int16, v => v.toInt
  | uint32, v => v.toNat
  | int32, v => v.toInt
  | uint64, v => v.toNat
  | int64, v => v.toInt
  | bool, v => v.toNat
  | float, v => v.bits.toNat
  | double, v => v.bits.toNat

/-- A word is its signed value modulo the number of all words. -/
theorem toNat_eq_toInt_emod {w : Nat} (b : BitVec w) :
    (b.toNat : Int) = b.toInt % (2 ^ w : Nat) := by
  have h := BitVec.toNat_ofInt b.toInt (n := w)
  rw [BitVec.ofInt_toInt] at h
  rw [h]
  exact Int.toNat_of_nonneg (Int.emod_nonneg _ (by have := Nat.two_pow_pos w; omega))

/-- The code of a value is its number modulo the capacity of its bytes. -/
theorem code_eq_number_emod (t : ScalarType) (v : t.Value) :
    (t.code v : Int) = t.number v % capacity t.size := by
  have hlt := t.code_lt v
  cases t
  case int8 => exact toNat_eq_toInt_emod v.toBitVec
  case int16 => exact toNat_eq_toInt_emod v.toBitVec
  case int32 => exact toNat_eq_toInt_emod v.toBitVec
  case int64 => exact toNat_eq_toInt_emod v.toBitVec
  all_goals
    exact (Int.emod_eq_of_lt (Int.natCast_nonneg _) (Int.ofNat_lt.mpr hlt)).symm

/-- Each byte of a value is the digit of its number at the place of the byte. -/
theorem toNat_getElem_encode {t : ScalarType} {v : t.Value} {i : Nat}
    (h : i < (t.encode v).length) :
    ((t.encode v)[i].toNat : Int) = t.number v / capacity (t.size - 1 - i) % 256 := by
  have hi : i < t.size := by rwa [length_encode] at h
  have hbyte : (t.encode v)[i].toNat = t.code v / capacity (t.size - 1 - i) % 256 :=
    BigEndian.toNat_getElem_encode (t.code v) h
  have hpos := capacity_pos (t.size - 1 - i)
  have hsplit : capacity t.size = capacity (t.size - 1 - i) * (256 * capacity i) := by
    change _ = _ * capacity (i + 1)
    rw [← capacity_add]
    congr 1
    omega
  calc ((t.encode v)[i].toNat : Int)
      = t.number v % capacity t.size / capacity (t.size - 1 - i) % 256 := by
        rw [hbyte, ← code_eq_number_emod, Int.natCast_emod, Int.natCast_ediv]
        rfl
    _ = t.number v / capacity (t.size - 1 - i) % (256 * capacity i) % 256 := by
        rw [hsplit, Int.natCast_mul, emod_mul_ediv _ (Int.natCast_pos.mpr hpos), Int.natCast_mul]
        rfl
    _ = t.number v / capacity (t.size - 1 - i) % 256 :=
        Int.emod_emod_of_dvd _ (Int.dvd_mul_right 256 _)

end ScalarType

end WireSchema
