import WireSchema.Text.Utf8

/-!
# The schema hash

The 32-bit FNV-1a hash of a byte string, and of a text through its UTF-8 bytes: each byte is mixed
into the lowest bits of the state, which is then multiplied by a prime, all modulo 2^32. The main
statement says that a hash continues from the hash of the bytes before.
-/

namespace WireSchema.Fingerprint

/-- The hash of no bytes. -/
def basis : UInt32 := 2166136261

/-- The multiplier of each step. -/
def prime : UInt32 := 16777619

/-- The state after one more byte. -/
def step (state : UInt32) (byte : UInt8) : UInt32 := (state ^^^ byte.toUInt32) * prime

/-- The hash of a byte string. -/
def ofBytes (bytes : List UInt8) : UInt32 := bytes.foldl step basis

/-- The hash of the UTF-8 bytes of a text. -/
def ofText (s : String) : UInt32 := ofBytes (Text.utf8 s)

/-- A longer byte string is hashed from the hash of its start. -/
theorem ofBytes_append (a b : List UInt8) : ofBytes (a ++ b) = b.foldl step (ofBytes a) := by
  simp [ofBytes]

end WireSchema.Fingerprint
