import WireSchema.Schema.Canonical
import WireSchema.Schema.Check
import WireSchema.Schema.Fingerprint
import WireSchema.Schema.Outline

/-!
# From a schema text to its descriptor

`Message.parse` reads a schema with exactly one struct. The descriptor comes from the text without
comments, and the hash from the canonical form of the whole text. Faults of the outline come
before faults of single statements, those before faults of single declarations, and these before
faults of the fields taken together.
-/

namespace WireSchema

/-- Answers of the reader can be compared. -/
instance decEqAnswer : DecidableEq (Except SchemaError Message)
  | .ok m, .ok n =>
    if h : m = n then .isTrue (h ▸ rfl) else .isFalse fun he ↦ h (Except.ok.inj he)
  | .error e, .error f =>
    if h : e = f then .isTrue (h ▸ rfl) else .isFalse fun he ↦ h (Except.error.inj he)
  | .ok _, .error _ => .isFalse nofun
  | .error _, .ok _ => .isFalse nofun

namespace Message

/-- The descriptor of the characters of a schema, or the first thing that is wrong with them. -/
def parseChars (s : List Char) : Except SchemaError Message := do
  let outline ← Outline.ofText (Comment.erase s)
  let declarations ← Declaration.ofBody outline.body
  let fields ← declarations.mapM Declaration.toField
  checkFields outline.structName fields
  let canonicalText := String.ofList (Canonical.form s)
  return {
    structName := outline.structName
    package := outline.package
    fields := fields
    canonicalText := canonicalText
    hash := Fingerprint.ofText canonicalText }

/-- The descriptor of a schema text, or the first thing that is wrong with it. -/
def parse (source : String) : Except SchemaError Message := parseChars source.toList

end Message

end WireSchema
