import WireSchema.Schema.ScalarType
import WireSchema.Wire.BigEndian
import WireSchema.Wire.Error

/-!
# Scalar values and their bytes

Each scalar type has its values and a code for each value, a number that fits in the bytes of the
type: an integer modulo the capacity of these bytes, zero and one for booleans, the IEEE 754 bits
for floating point. The bytes of a value are its code, most significant byte first. Floating-point
numbers are only moved, never computed with, so they are kept as their bits. The main statements
say that reading the bytes of a value gives the value back, and that bytes which can be read are
those of what they read as.
-/

namespace WireSchema

/-- A single-precision number, as its bits. -/
structure Binary32 where
  bits : UInt32
  deriving DecidableEq, Repr, Inhabited

/-- A double-precision number, as its bits. -/
structure Binary64 where
  bits : UInt64
  deriving DecidableEq, Repr, Inhabited

/-- All exponent bits are set and so is one of the mantissa. -/
def Binary32.isNaN (x : Binary32) : Bool := 0x7f800000 < x.bits &&& 0x7fffffff

/-- Equality of the numbers: nothing equals a NaN, and both zeros are equal. -/
def Binary32.equals (x y : Binary32) : Bool :=
  !x.isNaN && !y.isNaN && (x == y || (x.bits ||| y.bits) &&& 0x7fffffff == 0)

/-- All exponent bits are set and so is one of the mantissa. -/
def Binary64.isNaN (x : Binary64) : Bool := 0x7ff0000000000000 < x.bits &&& 0x7fffffffffffffff

/-- Equality of the numbers: nothing equals a NaN, and both zeros are equal. -/
def Binary64.equals (x y : Binary64) : Bool :=
  !x.isNaN && !y.isNaN && (x == y || (x.bits ||| y.bits) &&& 0x7fffffffffffffff == 0)

namespace ScalarType

/-- The values of a scalar type. -/
abbrev Value : ScalarType → Type
  | uint8 => UInt8
  | int8 => Int8
  | uint16 => UInt16
  | int16 => Int16
  | uint32 => UInt32
  | int32 => Int32
  | uint64 => UInt64
  | int64 => Int64
  | bool => Bool
  | float => Binary32
  | double => Binary64

/-- Values are told apart by their bits. -/
instance decEqValue : (t : ScalarType) → DecidableEq t.Value
  | uint8 => inferInstanceAs (DecidableEq UInt8)
  | int8 => inferInstanceAs (DecidableEq Int8)
  | uint16 => inferInstanceAs (DecidableEq UInt16)
  | int16 => inferInstanceAs (DecidableEq Int16)
  | uint32 => inferInstanceAs (DecidableEq UInt32)
  | int32 => inferInstanceAs (DecidableEq Int32)
  | uint64 => inferInstanceAs (DecidableEq UInt64)
  | int64 => inferInstanceAs (DecidableEq Int64)
  | bool => inferInstanceAs (DecidableEq Bool)
  | float => inferInstanceAs (DecidableEq Binary32)
  | double => inferInstanceAs (DecidableEq Binary64)

/-- The code of a value. -/
def code : (t : ScalarType) → t.Value → Nat
  | uint8, v => v.toNat
  | int8, v => v.toUInt8.toNat
  | uint16, v => v.toNat
  | int16, v => v.toUInt16.toNat
  | uint32, v => v.toNat
  | int32, v => v.toUInt32.toNat
  | uint64, v => v.toNat
  | int64, v => v.toUInt64.toNat
  | bool, v => v.toNat
  | float, v => v.bits.toNat
  | double, v => v.bits.toNat

/-- The value of a code; a boolean has the codes zero and one only. -/
def ofCode : (t : ScalarType) → Nat → Except WireError t.Value
  | uint8, n => .ok (UInt8.ofNat n)
  | int8, n => .ok (UInt8.ofNat n).toInt8
  | uint16, n => .ok (UInt16.ofNat n)
  | int16, n => .ok (UInt16.ofNat n).toInt16
  | uint32, n => .ok (UInt32.ofNat n)
  | int32, n => .ok (UInt32.ofNat n).toInt32
  | uint64, n => .ok (UInt64.ofNat n)
  | int64, n => .ok (UInt64.ofNat n).toInt64
  | bool, 0 => .ok false
  | bool, 1 => .ok true
  | bool, n => .error (.invalidBool (UInt8.ofNat n))
  | float, n => .ok ⟨UInt32.ofNat n⟩
  | double, n => .ok ⟨UInt64.ofNat n⟩

/-- The value whose code is zero. -/
def zero : (t : ScalarType) → t.Value
  | uint8 => (0 : UInt8)
  | int8 => (0 : Int8)
  | uint16 => (0 : UInt16)
  | int16 => (0 : Int16)
  | uint32 => (0 : UInt32)
  | int32 => (0 : Int32)
  | uint64 => (0 : UInt64)
  | int64 => (0 : Int64)
  | bool => false
  | float => ⟨0⟩
  | double => ⟨0⟩

/-- Equality as the numbers compare: it differs from being the same only for floating point. -/
def equals : (t : ScalarType) → t.Value → t.Value → Bool
  | float, x, y => Binary32.equals x y
  | double, x, y => Binary64.equals x y
  | _, x, y => decide (x = y)

/-- The bytes of a value. -/
def encode (t : ScalarType) (v : t.Value) : List UInt8 := BigEndian.encode t.size (t.code v)

/-- The value of as many bytes as the type has. -/
def decode (t : ScalarType) (bytes : List UInt8) : Except WireError t.Value :=
  t.ofCode (BigEndian.decode bytes)

/-- A value has as many bytes as its type. -/
theorem length_encode (t : ScalarType) (v : t.Value) : (t.encode v).length = t.size :=
  BigEndian.length_encode _ _

/-- A code fits in the bytes of its type. -/
theorem code_lt (t : ScalarType) (v : t.Value) : t.code v < BigEndian.capacity t.size := by
  cases t <;> simp only [code, size]
  case bool => cases v <;> decide
  case uint8 => exact UInt8.toNat_lt_size v
  case int8 => exact UInt8.toNat_lt_size v.toUInt8
  case uint16 => exact UInt16.toNat_lt_size v
  case int16 => exact UInt16.toNat_lt_size v.toUInt16
  case uint32 => exact UInt32.toNat_lt_size v
  case int32 => exact UInt32.toNat_lt_size v.toUInt32
  case uint64 => exact UInt64.toNat_lt_size v
  case int64 => exact UInt64.toNat_lt_size v.toUInt64
  case float => exact UInt32.toNat_lt_size v.bits
  case double => exact UInt64.toNat_lt_size v.bits

/-- The code of a value is a code for it. -/
theorem ofCode_code (t : ScalarType) (v : t.Value) : t.ofCode (t.code v) = .ok v := by
  cases t <;> simp [code, ofCode]
  case bool => cases v <;> rfl

/-- A value is read back from its bytes. -/
theorem decode_encode (t : ScalarType) (v : t.Value) : t.decode (t.encode v) = .ok v := by
  rw [decode, encode, BigEndian.decode_encode (t.code_lt v), ofCode_code]

/-- A number that is a code for a value is the code of that value. -/
theorem code_of_ofCode {t : ScalarType} {n : Nat} {v : t.Value}
    (hn : n < BigEndian.capacity t.size) (h : t.ofCode n = .ok v) : t.code v = n := by
  cases t <;> simp only [ofCode] at h <;> simp only [size, BigEndian.capacity] at hn
  case bool =>
    rcases n with _ | _ | n
    · cases h
      rfl
    · cases h
      rfl
    · cases h
  all_goals
    cases h
    simp only [code, UInt8.toUInt8_toInt8, UInt16.toUInt16_toInt16, UInt32.toUInt32_toInt32,
      UInt64.toUInt64_toInt64, UInt8.toNat_ofNat', UInt16.toNat_ofNat', UInt32.toNat_ofNat',
      UInt64.toNat_ofNat']
    omega

/-- Bytes that can be read are the bytes of what they read as. -/
theorem encode_of_decode {t : ScalarType} {bytes : List UInt8} {v : t.Value}
    (hs : bytes.length = t.size) (h : t.decode bytes = .ok v) : t.encode v = bytes := by
  rw [encode, code_of_ofCode (BigEndian.decode_lt hs) h, BigEndian.encode_decode hs]

end ScalarType

end WireSchema
