/-!
# Names in a schema

A name is an ASCII letter or low line followed by ASCII letters, digits and low lines. A dotted
name is one name or several joined by single dots. `scanName?` and `scanDotted?` split a text
after the longest name it starts with, so the character that follows cannot belong to the name.
-/

namespace WireSchema.Text

/-- An ASCII letter or the low line. -/
def isNameStart (c : Char) : Bool := c.isAlpha || c == '_'

/-- An ASCII letter or digit, or the low line. -/
def isNameChar (c : Char) : Bool := c.isAlphanum || c == '_'

/-- A name is not empty, and does not start with a digit. -/
def isName : List Char → Bool
  | [] => false
  | c :: r => isNameStart c && r.all isNameChar

/-- The longest name that the text starts with, and what follows it. -/
def scanName? (s : List Char) : Option (List Char × List Char) :=
  let name := s.takeWhile isNameChar
  if isName name then some (name, s.dropWhile isNameChar) else none

/-- Names joined by single dots. -/
def isDotted (s : List Char) : Bool := (s.splitOn '.').all isName

/-- The characters of dotted names. -/
def isDottedChar (c : Char) : Bool := isNameChar c || c == '.'

/-- The dotted name that takes up all name characters and dots at the start of the text, and what
follows it. -/
def scanDotted? (s : List Char) : Option (List Char × List Char) :=
  let name := s.takeWhile isDottedChar
  if isDotted name then some (name, s.dropWhile isDottedChar) else none

/-- A name and what follows it make up the text. -/
theorem scanName?_append {s name rest : List Char} (h : scanName? s = some (name, rest)) :
    name ++ rest = s := by
  simp only [scanName?] at h
  split at h
  · cases h
    exact List.takeWhile_append_dropWhile
  · cases h

/-- What is scanned as a name is one. -/
theorem isName_of_scanName? {s name rest : List Char} (h : scanName? s = some (name, rest)) :
    isName name = true := by
  simp only [scanName?] at h
  split at h
  next hn =>
    cases h
    exact hn
  next => cases h

/-- A dotted name and what follows it make up the text. -/
theorem scanDotted?_append {s name rest : List Char} (h : scanDotted? s = some (name, rest)) :
    name ++ rest = s := by
  simp only [scanDotted?] at h
  split at h
  · cases h
    exact List.takeWhile_append_dropWhile
  · cases h

/-- What is scanned as a dotted name is one. -/
theorem isDotted_of_scanDotted? {s name rest : List Char}
    (h : scanDotted? s = some (name, rest)) : isDotted name = true := by
  simp only [scanDotted?] at h
  split at h
  next hn =>
    cases h
    exact hn
  next => cases h

end WireSchema.Text
