import WireSchema.Proofs.Text.Scan
import WireSchema.Schema.Message

/-!
# The grammar of schemas

Which texts without comments are schemas, and what they say, as a relation between a text and the
parts of a message. It says nothing about how a text is read. Blanks may stand between any two
words, and have to stand between two names.
-/

namespace WireSchema.Grammar

open Text

/-- What ends a declaration: nothing for a scalar, and a number in brackets for an array. -/
inductive Extent : List Char → Option UInt32 → Prop
  | scalar : Extent [] none
  | array {w digits w' : List Char} {n : UInt32} (hw : Blanks w)
      (hd : decimal? digits = some n.toNat) (hn : n ≠ 0) (hw' : Blanks w') :
      Extent ('[' :: (w ++ (digits ++ (w' ++ [']'])))) (some n)

/-- A type and a name with their extent declare a field. -/
inductive Declares : List Char → Field → Prop
  | intro {type : ScalarType} {sep name w extent : List Char} {length : Option UInt32}
      (hsep : Separator sep) (hname : isName name = true) (hw : Blanks w)
      (he : Extent extent length) :
      Declares (type.name.toList ++ (sep ++ (name ++ (w ++ extent))))
        ⟨type, String.ofList name, length⟩

/-- The pieces of a body, each of them blank or a declaration, and the fields they declare. -/
inductive Pieces : List (List Char) → List Field → Prop
  | nil : Pieces [] []
  | blank {w : List Char} {pieces : List (List Char)} {fields : List Field} (hw : Blanks w)
      (h : Pieces pieces fields) : Pieces (w :: pieces) fields
  | field {w text w' : List Char} {f : Field} {pieces : List (List Char)} {fields : List Field}
      (hw : Blanks w) (hd : Declares text f) (hw' : Blanks w') (h : Pieces pieces fields) :
      Pieces ((w ++ (text ++ w')) :: pieces) (f :: fields)

/-- A body has no braces, and semicolons between its pieces. -/
structure Body (body : List Char) (fields : List Field) : Prop where
  noOpen : '\x7b' ∉ body
  noClose : '\x7d' ∉ body
  pieces : Pieces (body.splitOn ';') fields

/-- What stands before the header: blanks, with one package directive among them or none. -/
inductive Preamble : List Char → Option String → Prop
  | blank {w : List Char} (hw : Blanks w) : Preamble w none
  | package {w sep name w₁ w₂ : List Char} (hw : Blanks w) (hsep : Separator sep)
      (hname : isDotted name = true) (hw₁ : Blanks w₁) (hw₂ : Blanks w₂) :
      Preamble (w ++ ("package".toList ++ (sep ++ (name ++ (w₁ ++ ';' :: w₂)))))
        (some (String.ofList name))

/-- A preamble, a header, a body in braces and a semicolon are a schema. -/
inductive Schema : List Char → String → Option String → List Field → Prop
  | intro {before sep name w body w₁ w₂ : List Char} {package : Option String}
      {fields : List Field} (hpre : Preamble before package) (hsep : Separator sep)
      (hname : isName name = true) (hw : Blanks w) (hbody : Body body fields) (hw₁ : Blanks w₁)
      (hw₂ : Blanks w₂) :
      Schema
        (before ++ ("struct".toList ++ (sep ++ (name ++ (w ++ '\x7b' :: (body ++ '\x7d' ::
          (w₁ ++ ';' :: w₂)))))))
        (String.ofList name) package fields

/-! ### The names of a schema -/

/-- The name of a field is a name. -/
theorem Declares.isName_name {s : List Char} {f : Field} (h : Declares s f) :
    isName f.name.toList = true := by
  obtain ⟨_, hname, _, _⟩ := h
  rwa [String.toList_ofList]

/-- The names of the fields of a body are names. -/
theorem Pieces.isName_name {pieces : List (List Char)} {fields : List Field}
    (h : Pieces pieces fields) : ∀ f ∈ fields, isName f.name.toList = true := by
  induction h with
  | nil => simp
  | blank _ _ ih => exact ih
  | field _ hd _ _ ih => exact List.forall_mem_cons.mpr ⟨hd.isName_name, ih⟩

/-- The names of a schema are names. -/
theorem Schema.isName_names {s : List Char} {structName : String} {package : Option String}
    {fields : List Field} (h : Schema s structName package fields) :
    isName structName.toList = true ∧ ∀ f ∈ fields, isName f.name.toList = true := by
  cases h with
  | intro _ _ hname _ hbody _ _ =>
    refine ⟨?_, hbody.pieces.isName_name⟩
    rwa [String.toList_ofList]

/-! ### The characters of a body -/

/-- The name of a type is a name. -/
theorem isName_typeName (type : ScalarType) : isName type.name.toList = true := by
  cases type <;> decide

/-- The characters of names, blanks and brackets: no other one is in a declaration. -/
def isDeclarationChar (c : Char) : Bool := isNameChar c || isBlank c || c == '[' || c == ']'

private theorem isDeclarationChar_of_mem_name {name : List Char} (h : isName name = true) :
    ∀ c ∈ name, isDeclarationChar c = true := by
  intro c hc
  simp [isDeclarationChar, isNameChar_of_mem_name h c hc]

private theorem isDeclarationChar_of_mem_blanks {w : List Char} (hw : Blanks w) :
    ∀ c ∈ w, isDeclarationChar c = true := by
  intro c hc
  simp [isDeclarationChar, hw c hc]

/-- A declaration has no other characters. -/
theorem Declares.isDeclarationChar {s : List Char} {f : Field} (hd : Declares s f) :
    ∀ c ∈ s, isDeclarationChar c = true := by
  obtain ⟨hsep, hname, hw, he⟩ := hd
  rename_i type sep name w extent length
  have hextent : ∀ c ∈ extent, Grammar.isDeclarationChar c = true := by
    cases he with
    | scalar => simp
    | array hw₁ hd hn hw₂ =>
      simp only [List.forall_mem_cons, List.forall_mem_append]
      refine ⟨by decide, isDeclarationChar_of_mem_blanks hw₁, fun c hc ↦ ?_,
        isDeclarationChar_of_mem_blanks hw₂, by decide, by simp⟩
      have hdigit := (decimal?_eq_some_iff.mp hd).2.1 c hc
      simp [Grammar.isDeclarationChar, isNameChar_of_isDigit hdigit]
  simp only [List.forall_mem_append]
  exact ⟨isDeclarationChar_of_mem_name (isName_typeName type),
    isDeclarationChar_of_mem_blanks hsep.2, isDeclarationChar_of_mem_name hname,
    isDeclarationChar_of_mem_blanks hw, hextent⟩

/-- Pieces have no other characters. -/
theorem Pieces.isDeclarationChar {pieces : List (List Char)} {fields : List Field}
    (h : Pieces pieces fields) : ∀ p ∈ pieces, ∀ c ∈ p, isDeclarationChar c = true := by
  induction h with
  | nil => simp
  | blank hw _ ih => exact List.forall_mem_cons.mpr ⟨isDeclarationChar_of_mem_blanks hw, ih⟩
  | field hw hd hw' _ ih =>
    refine List.forall_mem_cons.mpr ⟨?_, ih⟩
    simp only [List.forall_mem_append]
    exact ⟨isDeclarationChar_of_mem_blanks hw, hd.isDeclarationChar,
      isDeclarationChar_of_mem_blanks hw'⟩

/-- A body has no other characters than its pieces and the semicolons between them. -/
theorem Pieces.isDeclarationChar_of_mem {body : List Char} {fields : List Field}
    (h : Pieces (body.splitOn ';') fields) {c : Char} (hc : c ∈ body) (hs : c ≠ ';') :
    Grammar.isDeclarationChar c = true := by
  obtain ⟨p, hp, hm⟩ := exists_mem_splitOn hc hs
  exact h.isDeclarationChar p hp c hm

/-- Pieces that declare fields have no braces between them. -/
theorem body_iff {body : List Char} {fields : List Field} :
    Body body fields ↔ Pieces (body.splitOn ';') fields := by
  constructor
  · exact Body.pieces
  · intro h
    refine ⟨fun hc ↦ ?_, fun hc ↦ ?_, h⟩
    · exact absurd (h.isDeclarationChar_of_mem hc (by decide)) (by decide)
    · exact absurd (h.isDeclarationChar_of_mem hc (by decide)) (by decide)

/-! ### The characters of a schema -/

/-- The characters of a schema: dotted names, blanks, brackets, braces and semicolons. -/
def isSchemaChar (c : Char) : Bool :=
  isDottedChar c || isBlank c || ['[', ']', '\x7b', '\x7d', ';'].contains c

/-- No other character is in a preamble. -/
theorem Preamble.not_mem {before : List Char} {package : Option String}
    (h : Preamble before package) {c : Char} (hc : isSchemaChar c = false) : c ∉ before := by
  simp only [isSchemaChar, Bool.or_eq_false_iff, List.contains_cons, beq_eq_false_iff_ne] at hc
  obtain ⟨⟨hd, hb⟩, _, _, _, _, hs, _⟩ := hc
  cases h with
  | blank hw => exact hw.not_mem hb
  | package hw hsep hname hw₁ hw₂ =>
    simp only [List.mem_append, List.mem_cons, not_or]
    exact ⟨hw.not_mem hb, not_mem_of_isDotted (by decide) hd, hsep.2.not_mem hb,
      not_mem_of_isDotted hname hd, hw₁.not_mem hb, hs, hw₂.not_mem hb⟩

/-- No other character is in a schema. -/
theorem Schema.not_mem {s : List Char} {structName : String} {package : Option String}
    {fields : List Field} (h : Schema s structName package fields) {c : Char}
    (hc : isSchemaChar c = false) : c ∉ s := by
  cases h with
  | @intro before sep name w body w₁ w₂ package fields hpre hsep hname hw hbody hw₁ hw₂ =>
    have hbefore := hpre.not_mem hc
    simp only [isSchemaChar, Bool.or_eq_false_iff, List.contains_cons, beq_eq_false_iff_ne,
      isDottedChar] at hc
    obtain ⟨⟨⟨hn, _⟩, hb⟩, hopen, hclose, hbrace, hbrace', hs, _⟩ := hc
    have hmem : c ∉ body := by
      intro hm
      have hdeclaration := hbody.pieces.isDeclarationChar_of_mem hm hs
      simp [isDeclarationChar, hn, hb, hopen, hclose] at hdeclaration
    simp only [List.mem_append, List.mem_cons, not_or]
    exact ⟨hbefore, not_mem_of_isName (by decide) hn, hsep.2.not_mem hb, not_mem_of_isName hname hn,
      hw.not_mem hb, hbrace, hmem, hbrace', hw₁.not_mem hb, hs, hw₂.not_mem hb⟩

end WireSchema.Grammar
