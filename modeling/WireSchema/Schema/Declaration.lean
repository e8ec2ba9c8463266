import WireSchema.Schema.Error
import WireSchema.Text.Name
import WireSchema.Text.Skip

/-!
# Field declarations

The body of a struct is a list of statements separated by semicolons; blank statements do not
count, and the last semicolon may be missing. A declaration is a statement of the form `type name`
or `type name[length]`, split into its words but not yet checked: the type may be unknown, and the
length is the text between the brackets.
-/

namespace WireSchema

open Text

/-- One statement of a struct body, as it is written. -/
structure Declaration where
  typeName : String
  name : String
  length : Option String
  deriving DecidableEq, Repr

namespace Declaration

/-- The digits of an array length, with the minus sign it may have, and what follows them. -/
def scanLength? (s : List Char) : Option (List Char × List Char) :=
  let sign := s.takeWhile (· == '-')
  let r := s.drop sign.length
  let digits := r.takeWhile Char.isDigit
  if sign.length ≤ 1 && !digits.isEmpty then some (sign ++ digits, r.dropWhile Char.isDigit)
  else none

/-- The text between the brackets that end a declaration, without the blanks around it. -/
def bracketed? (s : List Char) : Option (List Char) := do
  let r ← skipChar? '[' s
  let (length, r) ← scanLength? (trimStart r)
  let r ← skipChar? ']' (trimStart r)
  if r.isEmpty then some length else none

/-- The declaration that makes up a trimmed statement. -/
def ofStatement? (s : List Char) : Option Declaration := do
  let (typeName, r) ← scanName? s
  let (name, r) ← scanName? (← skipBlanks? r)
  match trimStart r with
  | [] => some ⟨String.ofList typeName, String.ofList name, none⟩
  | tail => do
    let length ← bracketed? tail
    some ⟨String.ofList typeName, String.ofList name, some (String.ofList length)⟩

/-- The statements of a struct body, trimmed, without the blank ones. -/
def statements (body : List Char) : List (List Char) :=
  ((body.splitOn ';').map trim).filter fun s ↦ !s.isEmpty

/-- The declaration that a statement has to be. -/
def ofStatement (s : List Char) : Except SchemaError Declaration :=
  match ofStatement? s with
  | some d => .ok d
  | none => .error (.invalidStatement (String.ofList s))

/-- The declarations of a struct body, in order; the first bad statement is the error. -/
def ofBody (body : List Char) : Except SchemaError (List Declaration) :=
  (statements body).mapM ofStatement

end Declaration

end WireSchema
