import WireSchema.Schema.Fingerprint
import WireSchema.Schema.Message

/-!
# Descriptors from their parts

A schema without comments, package, spacing, blank statements and leading zeros is its canonical
form already. `Message.compose` is the descriptor of the schema that is written in this way.
-/

namespace WireSchema

/-- The declaration of a field in canonical form. -/
def Field.canonicalText (f : Field) : String :=
  f.type.name ++ f.name ++
    (match f.length with
      | none => ""
      | some n => "[" ++ toString n.toNat ++ "]") ++ ";"

namespace Message

/-- The schema with the given struct name and fields in canonical form. -/
def composedText (structName : String) (fields : List Field) : String :=
  "struct" ++ structName ++ "\x7b" ++ String.join (fields.map Field.canonicalText) ++ "\x7d;"

/-- The descriptor with the given parts. -/
def compose (structName : String) (package : Option String) (fields : List Field) : Message where
  structName := structName
  package := package
  fields := fields
  canonicalText := composedText structName fields
  hash := Fingerprint.ofText (composedText structName fields)

end Message

end WireSchema
