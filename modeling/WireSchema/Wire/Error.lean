import WireSchema.Text.Numeral

/-!
# Failures on the wire

What can go wrong when values are written to a buffer of bytes or read from one, with the sizes
that were needed and there.
-/

namespace WireSchema

/-- Why values are not written or read. -/
inductive WireError
  /-- A value would end beyond the buffer. -/
  | overflow (needed capacity : Nat)
  /-- Fewer bytes are left than a value takes. -/
  | underflow (needed remaining : Nat)
  /-- The byte of a boolean is neither zero nor one. -/
  | invalidBool (byte : UInt8)
  /-- Bytes are left when all values are read. -/
  | trailingBytes (remaining : Nat)
  deriving DecidableEq, Repr

/-- The diagnostic for a failure. -/
def WireError.message : WireError → String
  | overflow needed capacity =>
    "buffer overflow: " ++ toString needed ++ " bytes needed, capacity is " ++ toString capacity
  | underflow needed remaining =>
    "buffer underflow: " ++ toString needed ++ " bytes needed, " ++ toString remaining ++
      " remaining"
  | invalidBool byte =>
    "invalid bool encoding 0x" ++ String.ofList (Text.upperHex 2 byte.toNat)
  | trailingBytes remaining => toString remaining ++ " trailing bytes left after decode"

end WireSchema
