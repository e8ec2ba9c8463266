import WireSchema.Text.Name
import WireSchema.Text.Skip
import WireSchema.Text.WordChar

/-!
# Package directives

A directive is the word `package`, a separator, a dotted name and a semicolon, with blanks allowed
before the semicolon. `directive?` reads the one that a text starts with; `eraseDirectives` removes
every directive of a text whose first word does not merely end a longer word.
-/

namespace WireSchema.Package

open Text

/-- The name in the directive that the text starts with, and what follows its semicolon. -/
def directive? (s : List Char) : Option (List Char × List Char) := do
  let r ← skipBlanks? (← skipWord? "package" s)
  let (name, r) ← scanDotted? r
  let rest ← skipChar? ';' (trimStart r)
  some (name, rest)

/-- A directive uses up characters. -/
theorem length_directive? {s name rest : List Char} (h : directive? s = some (name, rest)) :
    rest.length < s.length := by
  simp only [directive?, Option.bind_eq_bind, Option.bind_eq_some_iff, Option.some.injEq,
    Prod.mk.injEq] at h
  obtain ⟨a, ha, b, hb, ⟨n, r⟩, hn, t, ht, _, rfl⟩ := h
  have h₁ := length_skipWord? ha
  have h₂ := length_skipBlanks? hb
  have h₃ := congrArg List.length (scanDotted?_append hn)
  have h₄ := length_skipChar? ht
  have h₅ := length_trimStart_le r
  simp only [List.length_append] at h₃ h₄
  omega

/-- The directive at a place in a text. It cannot stand right after a word character, because its
first word would then only end a longer one. -/
def directiveAt? (inWord : Bool) (s : List Char) : Option (List Char × List Char) :=
  if inWord then none else directive? s

/-- A directive uses up characters wherever it stands. -/
theorem length_directiveAt? {inWord : Bool} {s : List Char} {found : List Char × List Char}
    (h : directiveAt? inWord s = some found) : found.2.length < s.length := by
  cases inWord with
  | true => cases h
  | false => exact @length_directive? s found.1 found.2 h

/-- The text without its package directives; `inWord` says whether a word character stands right
before it. -/
def eraseDirectives (inWord : Bool) : List Char → List Char
  | [] => []
  | c :: r =>
    match _h : directiveAt? inWord (c :: r) with
    | some (_, rest) => eraseDirectives false rest
    | none => c :: eraseDirectives (isWordChar c) r
termination_by s => s.length
decreasing_by
  · exact length_directiveAt? _h
  · simp

end WireSchema.Package
