import WireSchema.Text.LetterCase

/-!
# Name styles

How a schema name becomes a name of generated Rust code: `pascalCase` for structs, `snakeCase` for
fields, and `escape` for a result that is a reserved word or the bare low line, which then gets a
low line behind it.
-/

namespace WireSchema.Naming

open Text

/-- The word with its first character in upper case, and the rest in lower case if asked for. -/
def capitalize (lowerRest : Bool) : List Char → List Char
  | [] => []
  | c :: r => upper c ++ if lowerRest then lowerText r else r

/-- The words of the name, each capitalized, without the low lines between them. A name without
low lines is one word, whose rest only goes to lower case if the name is all upper case. -/
def pascalCase (s : List Char) : List Char :=
  if s.contains '_' then
    ((s.splitOn '_').filter fun word ↦ !word.isEmpty).flatMap (capitalize true)
  else capitalize (s == upperText s) s

/-- Whether an upper-case letter between `before` and `after` starts a new word: the letter before
it is not upper case, or the one after it is lower case. Nothing is to be done where no letter
comes before it or a low line already does. -/
def startsWord (before : Option Char) (after : List Char) : Bool :=
  match before with
  | none => false
  | some p => (!isUpper p || after.head?.any isLower) && p != '_'

/-- The name in lower case with a low line before each new word; `before` is the character that
comes before it. -/
def snakeCaseAfter (before : Option Char) : List Char → List Char
  | [] => []
  | c :: r =>
    if isUpper c then
      if startsWord before r then '_' :: (lower c ++ snakeCaseAfter (some c) r)
      else lower c ++ snakeCaseAfter (some c) r
    else c :: snakeCaseAfter (some c) r

/-- The name in lower case with a low line before each new word, so that acronyms stay whole. -/
def snakeCase (s : List Char) : List Char := snakeCaseAfter none s

/-- The words that cannot be names, with the bare low line. -/
def reserved : List String := [
  "_",
  "abstract", "as", "async", "await", "become", "box", "break", "const",
  "continue", "crate", "do", "dyn", "else", "enum", "extern", "false",
  "final", "fn", "for", "if", "impl", "in", "let", "loop", "macro",
  "match", "mod", "move", "mut", "override", "priv", "pub", "ref",
  "return", "self", "Self", "static", "struct", "super", "trait", "true",
  "try", "type", "typeof", "unsafe", "unsized", "use", "virtual", "where",
  "while", "yield"]

/-- The name, with a low line behind it if it is reserved. -/
def escape (name : String) : String :=
  if reserved.contains name then name ++ "_" else name

/-- The name of the struct that a schema name stands for; it may be empty. -/
def structName (name : String) : String := escape (String.ofList (pascalCase name.toList))

/-- The name of the field that a schema name stands for. -/
def fieldName (name : String) : String := escape (String.ofList (snakeCase name.toList))

/-- An escaped name is not reserved unless it grew into another reserved word; none does. -/
theorem escape_not_mem_reserved (name : String) : escape name ∉ reserved := by
  unfold escape
  split
  next h =>
    have hall : ∀ w ∈ reserved, w ++ "_" ∉ reserved := by decide
    exact hall name (by simpa using h)
  next h => simpa using h

end WireSchema.Naming
