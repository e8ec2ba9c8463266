import WireSchema.Schema.Message
import WireSchema.Text.Lines
import WireSchema.Text.Quoted

/-!
# Descriptors as JSON

A descriptor is written as a JSON object with one member to a line, two spaces further in for each
level, in the order struct name, package, fields, canonical text and hash. What is missing is
written as `null`, and a list without elements as `[]`.
-/

namespace WireSchema

open Text

/-- A member of an object, without its indentation. -/
def jsonMember (key value : String) : String := quote key ++ ": " ++ value

/-- The members of a field, without indentation. -/
def Field.dumpMembers (f : Field) : List String :=
  [jsonMember "type_name" (quote f.type.name) ++ ",",
    jsonMember "name" (quote f.name) ++ ",",
    jsonMember "array_len"
      (match f.length with
        | none => "null"
        | some n => toString n.toNat)]

/-- The lines of a field; a comma follows unless it is the last one. -/
def Field.dumpLines (f : Field) (isLast : Bool) : List String :=
  ["    \x7b"] ++ f.dumpMembers.map ("      " ++ ·) ++
    [if isLast then "    \x7d" else "    \x7d,"]

/-- The lines of the fields between the brackets of their list. -/
def dumpFields : List Field → List String
  | [] => []
  | [f] => f.dumpLines true
  | f :: g :: fs => f.dumpLines false ++ dumpFields (g :: fs)

namespace Message

/-- The lines of the list of fields. -/
def dumpFieldList (m : Message) : List String :=
  if m.fields.isEmpty then ["  " ++ jsonMember "fields" "[]" ++ ","]
  else ["  " ++ jsonMember "fields" "["] ++ dumpFields m.fields ++ ["  ],"]

/-- The lines of a descriptor. -/
def dumpLines (m : Message) : List String :=
  ["\x7b",
    "  " ++ jsonMember "struct_name" (quote m.structName) ++ ",",
    "  " ++ jsonMember "package"
      (match m.package with
        | none => "null"
        | some p => quote p) ++ ","] ++
    m.dumpFieldList ++
    ["  " ++ jsonMember "canonical_text" (quote m.canonicalText) ++ ",",
      "  " ++ jsonMember "msg_hash" (toString m.hash.toNat),
      "\x7d"]

/-- A descriptor as JSON. -/
def dump (m : Message) : String := joinLines m.dumpLines

end Message

end WireSchema
