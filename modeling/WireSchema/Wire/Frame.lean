import WireSchema.Wire.Record

/-!
# Frames

A frame is the schema hash of a message, in four bytes, followed by the bytes of a record. A frame
of another schema is refused before any byte of the record is looked at.
-/

namespace WireSchema

/-- Why a frame is refused. -/
inductive FrameError
  /-- There are fewer bytes than a hash has. -/
  | truncated
  /-- The hash is that of another schema. -/
  | hashMismatch (expected found : UInt32)
  /-- The bytes after the hash are refused. -/
  | payload (error : WireError)
  deriving DecidableEq, Repr

/-- The diagnostic for a refusal. -/
def FrameError.message : FrameError → String
  | truncated => "frame shorter than the 4 byte hash prefix"
  | hashMismatch expected found =>
    "schema hash mismatch: expected 0x" ++ String.ofList (Text.upperHex 8 expected.toNat) ++
      ", found 0x" ++ String.ofList (Text.upperHex 8 found.toNat)
  | payload e => e.message

namespace Frame

/-- The number of bytes of the hash. -/
def hashSize : Nat := 4

/-- The frame of a record. -/
def pack (m : Message) (r : Record m.fields) : Except WireError (List UInt8) :=
  match r.toBytes with
  | .error e => .error e
  | .ok bytes => .ok (BigEndian.encode hashSize m.hash.toNat ++ bytes)

/-- The record in a frame. -/
def unpack (m : Message) (frame : List UInt8) : Except FrameError (Record m.fields) :=
  if frame.length < hashSize then .error .truncated
  else
    let found := UInt32.ofNat (BigEndian.decode (frame.take hashSize))
    if found ≠ m.hash then .error (.hashMismatch m.hash found)
    else
      match Record.ofBytes m.fields (frame.drop hashSize) with
      | .error e => .error (.payload e)
      | .ok r => .ok r

end Frame

end WireSchema
