import WireSchema.Schema.Error
import WireSchema.Schema.Package

/-!
# The outline of a schema

A schema without its comments is an optional package directive, the header `struct name {`, a
body up to the brace that closes it, and a final semicolon. The header is the first place of the
text where one can stand. `Outline.ofText` splits a text into these parts; of several faults the
one that comes first in this order is reported: no header, something else before it, an open
brace, no semicolon, something after it.
-/

namespace WireSchema

open Text

/-- The parts of a schema; the body is what stands between the braces. -/
structure Outline where
  package : Option String
  structName : String
  body : List Char
  deriving DecidableEq, Repr

namespace Outline

/-- The struct name in the header that the text starts with, and what follows its brace. -/
def header? (s : List Char) : Option (List Char × List Char) := do
  let r ← skipBlanks? (← skipWord? "struct" s)
  let (name, r) ← scanName? r
  let rest ← skipChar? '\x7b' (trimStart r)
  some (name, rest)

/-- The header at a place in a text; it cannot stand right after a word character. -/
def headerAt? (inWord : Bool) (s : List Char) : Option (List Char × List Char) :=
  if inWord then none else header? s

/-- A text split at its first header: what stands before it, the struct name, and what follows the
opening brace. -/
def splitHeader? (inWord : Bool) : List Char → Option (List Char × List Char × List Char)
  | [] => none
  | c :: r =>
    match headerAt? inWord (c :: r) with
    | some (name, rest) => some ([], name, rest)
    | none => (splitHeader? (isWordChar c) r).map fun (before, found) ↦ (c :: before, found)

/-- What may stand before the header: blanks, with one package directive among them or none. The
answer is the package, or nothing if the text is anything else. -/
def preamble? (s : List Char) : Option (Option (List Char)) :=
  if s.all isBlank then some none
  else
    match Package.directive? (trimStart s) with
    | some (name, rest) => if rest.all isBlank then some (some name) else none
    | none => none

/-- What follows an opening brace, split at the brace that closes it: `depth` counts the braces
that are open inside of it. -/
def splitBrace? (depth : Nat) : List Char → Option (List Char × List Char)
  | [] => none
  | c :: r =>
    if c = '\x7b' then (splitBrace? (depth + 1) r).map fun (body, rest) ↦ (c :: body, rest)
    else if c = '\x7d' then
      match depth with
      | 0 => some ([], r)
      | depth + 1 => (splitBrace? depth r).map fun (body, rest) ↦ (c :: body, rest)
    else (splitBrace? depth r).map fun (body, rest) ↦ (c :: body, rest)

/-- Checks what follows the closing brace: a semicolon, with nothing but blanks around it. -/
def checkEnd (structName : String) (s : List Char) : Except SchemaError Unit :=
  match skipChar? ';' (trimStart s) with
  | none => .error (.missingSemicolon structName)
  | some rest =>
    if rest.all isBlank then .ok () else .error (.trailingContent (String.ofList (trim rest)))

/-- The parts of a text without comments. -/
def ofText (s : List Char) : Except SchemaError Outline :=
  match splitHeader? false s with
  | none => .error .missingHeader
  | some (before, name, rest) =>
    let structName := String.ofList name
    match preamble? before with
    | none => .error (.unexpectedPreamble (String.ofList (trim before)))
    | some package =>
      match splitBrace? 0 rest with
      | none => .error (.unterminatedBrace structName)
      | some (body, tail) =>
        match checkEnd structName tail with
        | .error e => .error e
        | .ok () => .ok ⟨package.map String.ofList, structName, body⟩

end Outline

end WireSchema
