import WireSchema.Proofs.Schema.Acceptance

/-!
# What a refused schema is refused for

A text without comments is refused for what is missing or left over in its outline, for a statement
that is no declaration, for a declaration with an unknown type or with a length that is no positive
32-bit word, or for its fields taken together. The main statement says that the error carries the
part of the text that is at fault, as it stands there: a name, a type, a length, or a trimmed piece.
-/

namespace WireSchema

open Text Grammar

/-! ### Headers -/

namespace Grammar

/-- A text that starts with a header: the keyword, a separator, a name and, after blanks, an opening
brace with `rest` behind it. -/
def Header (s name rest : List Char) : Prop :=
  ∃ sep w, Separator sep ∧ isName name = true ∧ Blanks w ∧
    s = "struct".toList ++ (sep ++ (name ++ (w ++ '\x7b' :: rest)))

/-- The first header of a text, with what stands before it and behind it. No header stands right
behind a word character, and `inWord` says whether one stands before the text. -/
inductive FirstHeader : Bool → List Char → List Char → List Char → List Char → Prop
  | here {s name rest : List Char} (h : Header s name rest) : FirstHeader false s [] name rest
  | later {inWord : Bool} {c : Char} {s before name rest : List Char}
      (hc : inWord = false → ∀ name rest, ¬Header (c :: s) name rest)
      (h : FirstHeader (isWordChar c) s before name rest) :
      FirstHeader inWord (c :: s) (c :: before) name rest

end Grammar

namespace Outline

private theorem headerAt?_eq_some_iff {inWord : Bool} {s name rest : List Char} :
    headerAt? inWord s = some (name, rest) ↔ inWord = false ∧ Header s name rest := by
  unfold headerAt?
  split
  · next h => simp [h]
  · next h =>
    rw [header?_eq_some_iff]
    simp [h, Header]

/-- A text is split exactly at its first header. -/
theorem splitHeader?_eq_some_iff {inWord : Bool} {s before name rest : List Char} :
    splitHeader? inWord s = some (before, name, rest) ↔
      FirstHeader inWord s before name rest := by
  constructor
  · intro h
    induction s generalizing inWord before with
    | nil => cases h
    | cons c s ih =>
      rw [splitHeader?] at h
      split at h
      · next hc =>
        cases h
        obtain ⟨rfl, hheader⟩ := headerAt?_eq_some_iff.mp hc
        exact .here hheader
      · next hc =>
        obtain ⟨⟨before, found⟩, hs, he⟩ := Option.map_eq_some_iff.mp h
        cases he
        refine .later (fun hword name rest hheader ↦ ?_) (ih hs)
        rw [headerAt?_eq_some_iff.mpr ⟨hword, hheader⟩] at hc
        cases hc
  · intro h
    induction h with
    | @here s name rest hheader =>
      have hat := headerAt?_eq_some_iff.mpr ⟨rfl, hheader⟩
      cases s with
      | nil => cases hat
      | cons c s => rw [splitHeader?, hat]
    | @later inWord c s before name rest hc _ ih =>
      have hat : headerAt? inWord (c :: s) = none := by
        rw [Option.eq_none_iff_forall_ne_some]
        rintro ⟨name, rest⟩ hat
        obtain ⟨hword, hheader⟩ := headerAt?_eq_some_iff.mp hat
        exact hc hword name rest hheader
      rw [splitHeader?, hat, ih]
      rfl

end Outline

/-! ### Outlines -/

/-- What is wrong with the outline of a text, and the part of the text that is at fault. -/
inductive OutlineFault (s : List Char) : SchemaError → Prop
  /-- There is no header. -/
  | header (h : ∀ before name rest, ¬FirstHeader false s before name rest) :
      OutlineFault s .missingHeader
  /-- No preamble stands before the header. -/
  | preamble {before name rest : List Char} (h : FirstHeader false s before name rest)
      (hpre : ∀ package, ¬Preamble before package) :
      OutlineFault s (.unexpectedPreamble (String.ofList (trim before)))
  /-- The brace behind the struct name is not closed. -/
  | brace {before name rest : List Char} (h : FirstHeader false s before name rest)
      (hbrace : Outline.splitBrace? 0 rest = none) :
      OutlineFault s (.unterminatedBrace (String.ofList name))
  /-- No semicolon follows the closing brace. -/
  | semicolon {before name rest body tail : List Char} (h : FirstHeader false s before name rest)
      (hbrace : Outline.splitBrace? 0 rest = some (body, tail))
      (htail : ∀ w r, Blanks w → tail ≠ w ++ ';' :: r) :
      OutlineFault s (.missingSemicolon (String.ofList name))
  /-- More than blanks follows the semicolon. -/
  | trailing {before name rest body w r : List Char} (h : FirstHeader false s before name rest)
      (hbrace : Outline.splitBrace? 0 rest = some (body, w ++ ';' :: r)) (hw : Blanks w)
      (hr : ¬Blanks r) : OutlineFault s (.trailingContent (String.ofList (trim r)))

namespace Outline

/-- What is read as no preamble is none. -/
private theorem not_preamble_of_preamble? {s : List Char} (h : preamble? s = none)
    (package : Option String) : ¬Preamble s package := by
  intro hpre
  have hread : preamble? s = some (package.map String.toList) := by
    rw [preamble?_eq_some_iff]
    simpa [Function.comp_def] using hpre
  rw [hread] at h
  cases h

/-- What follows the closing brace is refused if no semicolon comes first, or if more than blanks
follows that. -/
private theorem cases_of_checkEnd {structName : String} {s : List Char} {e : SchemaError}
    (h : checkEnd structName s = .error e) :
    (e = .missingSemicolon structName ∧ ∀ w r, Blanks w → s ≠ w ++ ';' :: r) ∨
      ∃ w r, Blanks w ∧ ¬Blanks r ∧ s = w ++ ';' :: r ∧
        e = .trailingContent (String.ofList (trim r)) := by
  unfold checkEnd at h
  split at h
  · next hs =>
    cases h
    refine .inl ⟨rfl, fun w r hw he ↦ ?_⟩
    rw [he, trimStart_append_of_stops hw (stops_cons.mpr (by decide)),
      skipChar?_eq_some_iff.mpr rfl] at hs
    cases hs
  · next r hs =>
    split at h
    · cases h
    · next hr =>
      cases h
      obtain ⟨w, hw, he⟩ := exists_blanks_append_trimStart s
      rw [skipChar?_eq_some_iff.mp hs] at he
      exact .inr ⟨w, r, hw, mt all_isBlank_iff.mpr hr, he, rfl⟩

/-- A text without an outline has a fault in it. -/
theorem fault_of_ofText {s : List Char} {e : SchemaError} (h : ofText s = .error e) :
    OutlineFault s e := by
  simp only [ofText] at h
  split at h
  · next hs =>
    cases h
    refine .header fun before name rest hheader ↦ ?_
    rw [splitHeader?_eq_some_iff.mpr hheader] at hs
    cases hs
  · next before name rest hs =>
    have hheader := splitHeader?_eq_some_iff.mp hs
    split at h
    · next hp =>
      cases h
      exact .preamble hheader (not_preamble_of_preamble? hp)
    · split at h
      · next hb =>
        cases h
        exact .brace hheader hb
      · next body tail hb =>
        split at h
        · next he =>
          cases h
          rcases cases_of_checkEnd he with ⟨rfl, htail⟩ | ⟨w, r, hw, hr, rfl, rfl⟩
          · exact .semicolon hheader hb htail
          · exact .trailing hheader hb hw hr
        · cases h

end Outline

/-! ### Declarations -/

/-- What is wrong with a declaration: its type if that is unknown, and else its length. -/
inductive DeclarationFault : Declaration → SchemaError → Prop
  /-- The type is unknown. -/
  | type {typeName name : String} {length : Option String} (h : ∀ t, typeName ≠ ScalarType.name t) :
      DeclarationFault ⟨typeName, name, length⟩ (.unsupportedType name typeName)
  /-- The length has a minus sign. -/
  | negative {type : ScalarType} {name : String} {digits : List Char} (hne : digits ≠ [])
      (hd : ∀ c ∈ digits, c.isDigit = true) :
      DeclarationFault ⟨type.name, name, some (String.ofList ('-' :: digits))⟩
        (.nonPositiveLength name (String.ofList ('-' :: digits)))
  /-- The length is zero. -/
  | zero {type : ScalarType} {name : String} {digits : List Char} (hne : digits ≠ [])
      (hd : ∀ c ∈ digits, c.isDigit = true) (hzero : Nat.ofDigitChars 10 digits 0 = 0) :
      DeclarationFault ⟨type.name, name, some (String.ofList digits)⟩
        (.nonPositiveLength name (String.ofList digits))
  /-- The length is no 32-bit word. -/
  | large {type : ScalarType} {name : String} {digits : List Char} (hne : digits ≠ [])
      (hd : ∀ c ∈ digits, c.isDigit = true) (hlarge : 4294967295 < Nat.ofDigitChars 10 digits 0) :
      DeclarationFault ⟨type.name, name, some (String.ofList digits)⟩
        (.lengthOutOfRange name (String.ofList digits))

namespace Declaration

/-- A text that is refused as a statement is none. -/
theorem fault_of_ofStatement {s : List Char} {e : SchemaError} (h : ofStatement s = .error e) :
    (∀ d, ¬Statement s d) ∧ e = .invalidStatement (String.ofList s) := by
  unfold ofStatement at h
  split at h
  · cases h
  · next hnone =>
    cases h
    refine ⟨fun d hd ↦ ?_, rfl⟩
    rw [ofStatement?_eq_some_iff.mpr hd] at hnone
    cases hnone

/-- A length that is refused is negative, zero or too large. -/
theorem fault_of_checkLength {type : ScalarType} {name : String} {length : List Char}
    {e : SchemaError} (hl : LengthText length)
    (h : checkLength name (String.ofList length) = .error e) :
    DeclarationFault ⟨type.name, name, some (String.ofList length)⟩ e := by
  cases hl with
  | @intro sign digits hsign hne hd =>
    rcases hsign with rfl | rfl
    · rw [List.nil_append, checkLength_of_digits hne hd] at h
      rw [List.nil_append]
      split at h
      · next hzero =>
        cases h
        exact .zero hne hd hzero
      · split at h
        · cases h
        · next hlarge =>
          cases h
          exact .large hne hd (Nat.lt_of_succ_le (Nat.le_of_not_lt hlarge))
    · rw [List.singleton_append, checkLength_of_minus] at h
      cases h
      exact .negative hne hd

/-- A statement that makes no field has a fault as a declaration. -/
theorem fault_of_toField {s : List Char} {d : Declaration} {e : SchemaError} (hs : Statement s d)
    (h : d.toField = .error e) : DeclarationFault d e := by
  cases hs with
  | @intro typeName sep name w tail length htype hsep hname hw ht =>
    unfold toField at h
    split at h
    · next hnone =>
      cases h
      refine .type fun t ht ↦ ?_
      dsimp only at hnone
      rw [ht, ScalarType.ofName?_name] at hnone
      cases hnone
    · next t htype =>
      have hname := ScalarType.ofName?_eq_some_iff.mp htype
      dsimp only at hname
      rw [hname]
      cases ht with
      | scalar => cases h
      | @array w length w' hw hl hw' =>
        dsimp only at h
        split at h
        · next hlength =>
          cases h
          exact fault_of_checkLength hl hlength
        · cases h

end Declaration

/-! ### Schemas -/

/-- A text with an outline, and the body of its struct. -/
def HasBody (s body : List Char) : Prop :=
  ∃ before package name w₁ w₂, Preamble before package ∧ Blanks w₁ ∧ Blanks w₂ ∧
    FirstHeader false s before name (body ++ '\x7d' :: (w₁ ++ ';' :: w₂))

/-- What is wrong with a text without comments, and the part of the text that is at fault. -/
inductive SchemaFault (s : List Char) : SchemaError → Prop
  /-- The text has no outline. -/
  | outline {e : SchemaError} (h : OutlineFault s e) : SchemaFault s e
  /-- A statement is no declaration. -/
  | statement {body text : List Char} (hbody : HasBody s body)
      (htext : text ∈ Declaration.statements body) (h : ∀ d, ¬Declaration.Statement text d) :
      SchemaFault s (.invalidStatement (String.ofList text))
  /-- A declaration makes no field. -/
  | declaration {body text : List Char} {d : Declaration} {e : SchemaError}
      (hbody : HasBody s body) (htext : text ∈ Declaration.statements body)
      (hd : Declaration.Statement text d) (h : DeclarationFault d e) : SchemaFault s e
  /-- The fields make no message. -/
  | fields {structName : String} {package : Option String} {fields : List Field} {e : SchemaError}
      (hschema : Schema s structName package fields) (h : FieldsFault structName fields e) :
      SchemaFault s e

namespace Outline

/-- An outline has the body of the text. -/
theorem hasBody_of_ofText {s : List Char} {outline : Outline} (h : ofText s = .ok outline) :
    HasBody s outline.body := by
  obtain ⟨before, sep, name, w, w₁, w₂, hpre, hsep, hname, hw, hw₁, hw₂, _, rfl⟩ :=
    exists_of_ofText_eq_ok h
  refine ⟨before, outline.package, name, w₁, w₂, hpre, hw₁, hw₂, ?_⟩
  exact splitHeader?_eq_some_iff.mp (splitHeader?_of_header hpre
    (header?_eq_some_iff.mpr ⟨sep, w, hsep, hname, hw, rfl⟩))

end Outline

namespace Message

/-- A refused text has a fault without its comments, and the error is that of the fault. -/
theorem fault_of_parseChars {s : List Char} {e : SchemaError} (h : parseChars s = .error e) :
    SchemaFault (Comment.erase s) e := by
  rw [parseChars, bind_eq_error_iff] at h
  rcases h with h | ⟨outline, ho, h⟩
  · exact .outline (Outline.fault_of_ofText h)
  have hbody := Outline.hasBody_of_ofText ho
  rcases bind_eq_error_iff.mp h with h | ⟨declarations, hd, h⟩
  · obtain ⟨text, htext, hstatement⟩ := exists_of_mapM_eq_error h
    obtain ⟨hnone, rfl⟩ := Declaration.fault_of_ofStatement hstatement
    exact .statement hbody htext hnone
  rcases bind_eq_error_iff.mp h with h | ⟨fields, hf, h⟩
  · obtain ⟨d, hmem, hfield⟩ := exists_of_mapM_eq_error h
    obtain ⟨text, htext, hstatement⟩ := exists_of_mem_of_mapM_eq_ok hd d hmem
    have hstatement := Declaration.ofStatement_eq_ok_iff.mp hstatement
    exact .declaration hbody htext hstatement (Declaration.fault_of_toField hstatement hfield)
  rcases bind_eq_error_iff.mp h with h | ⟨_, _, h⟩
  · have hschema : Schema (Comment.erase s) outline.structName outline.package fields :=
      readsTo_iff.mp ⟨outline.body, declarations, ho, hd, hf⟩
    exact .fields hschema (checkFields_eq_error_iff.mp h)
  · cases h

end Message

end WireSchema
