import WireSchema.Schema.Clash
import WireSchema.Schema.Declaration
import WireSchema.Schema.Message
import WireSchema.Text.Numeral

/-!
# Checks of a schema

A declaration becomes a field if its type is known and its array length is a number from 1 to
2^32 - 1. A list of fields makes a message if it is not empty, no two names are the same and the
payload is no larger than 2^32 - 1 bytes. The payload is summed in 64-bit words, which are large
enough for every schema of fewer than 2^29 fields; a sum that goes past them is an outcome apart.
-/

namespace WireSchema

open Text

/-- The largest payload of a message, in bytes. -/
def payloadLimit : UInt64 := 4294967295

/-- The number that a text means: ASCII digits after an optional plus sign, below 2^32. -/
def word32? (s : List Char) : Option UInt32 :=
  let digits :=
    match skipChar? '+' s with
    | some r => r
    | none => s
  match decimal? digits with
  | some n => if n < UInt32.size then some (UInt32.ofNat n) else none
  | none => none

/-- The array length that a text means, in the declaration of the named field. -/
def checkLength (field length : String) : Except SchemaError UInt32 :=
  match skipChar? '-' length.toList with
  | some _ => .error (.nonPositiveLength field length)
  | none =>
    match word32? length.toList with
    | none => .error (.lengthOutOfRange field length)
    | some n => if n = 0 then .error (.nonPositiveLength field length) else .ok n

namespace Declaration

/-- The field that a declaration makes; its type is looked at before its length. -/
def toField (d : Declaration) : Except SchemaError Field :=
  match ScalarType.ofName? d.typeName with
  | none => .error (.unsupportedType d.name d.typeName)
  | some type =>
    match d.length with
    | none => .ok ⟨type, d.name, none⟩
    | some text =>
      match checkLength d.name text with
      | .error e => .error e
      | .ok n => .ok ⟨type, d.name, some n⟩

end Declaration

/-- The bytes of a field as a word: its scalar size times its length, or times one. -/
def Field.wireWord (f : Field) : UInt64 :=
  UInt64.ofNat f.type.size *
    match f.length with
    | none => 1
    | some n => n.toUInt64

/-- The sum of two words, if it is a word. -/
def addWords? (a b : UInt64) : Option UInt64 :=
  if a.toNat + b.toNat < UInt64.size then some (a + b) else none

/-- The bytes of all fields, summed as words, if no sum goes past them. -/
def payloadWord? (fields : List Field) : Option UInt64 :=
  fields.foldlM (fun total f ↦ addWords? total f.wireWord) 0

/-- What comes of the check of the fields of a message. -/
inductive FieldsCheck
  | passes
  | refuses (e : SchemaError)
  /-- The sizes do not add up to a word. The check has no verdict then: it stops, or goes on with
  what is left of the sum, as its arithmetic is built. -/
  | overflows
  deriving DecidableEq, Repr

/-- Checks the fields of a message: there is one, no name is used twice, and they are not too
large together. -/
def FieldsCheck.ofFields (structName : String) (fields : List Field) : FieldsCheck :=
  if fields.isEmpty then .refuses (.noFields structName)
  else
    match firstClash? Field.name fields with
    | some (_, second) => .refuses (.duplicateField second.name)
    | none =>
      match payloadWord? fields with
      | none => .overflows
      | some size =>
        if payloadLimit < size then
          .refuses (.payloadTooLarge structName size.toNat payloadLimit.toNat)
        else .passes

/-- The check as an answer. Fields without a verdict do not make a message; they are refused for
their exact size. -/
def checkFields (structName : String) (fields : List Field) : Except SchemaError Unit :=
  match FieldsCheck.ofFields structName fields with
  | .passes => .ok ()
  | .refuses e => .error e
  | .overflows => .error (.payloadTooLarge structName (totalSize fields) payloadLimit.toNat)

end WireSchema
