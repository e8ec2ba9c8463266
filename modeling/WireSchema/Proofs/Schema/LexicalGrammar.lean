import WireSchema.Proofs.Schema.Grammar
import WireSchema.Proofs.Text.Lexemes

/-!
# The grammar of lexemes

The grammar of schemas, with lexemes in place of characters: there are no blanks in it. The main
statement says that a text is a schema exactly if its lexemes are, so that what a schema says only
depends on its lexemes.
-/

namespace WireSchema.Grammar

open Text

/-- The lexemes that end a declaration. -/
inductive LexicalExtent : List (List Char) → Option UInt32 → Prop
  | scalar : LexicalExtent [] none
  | array {digits : List Char} {n : UInt32} (hd : decimal? digits = some n.toNat) (hn : n ≠ 0) :
      LexicalExtent [['['], digits, [']']] (some n)

/-- The lexemes that declare a field. -/
inductive LexicalDeclares : List (List Char) → Field → Prop
  | intro {type : ScalarType} {name : List Char} {extent : List (List Char)}
      {length : Option UInt32} (hname : isName name = true) (he : LexicalExtent extent length) :
      LexicalDeclares (type.name.toList :: name :: extent) ⟨type, String.ofList name, length⟩

/-- The lexemes of the pieces of a body, and the fields they declare. -/
inductive LexicalPieces : List (List (List Char)) → List Field → Prop
  | nil : LexicalPieces [] []
  | blank {pieces : List (List (List Char))} {fields : List Field}
      (h : LexicalPieces pieces fields) : LexicalPieces ([] :: pieces) fields
  | field {ts : List (List Char)} {f : Field} {pieces : List (List (List Char))}
      {fields : List Field} (hd : LexicalDeclares ts f) (h : LexicalPieces pieces fields) :
      LexicalPieces (ts :: pieces) (f :: fields)

/-- The lexemes before the header. -/
inductive LexicalPreamble : List (List Char) → Option String → Prop
  | blank : LexicalPreamble [] none
  | package {name : List Char} (hname : isDotted name = true) :
      LexicalPreamble ["package".toList, name, [';']] (some (String.ofList name))

/-- The lexemes of a schema. -/
inductive LexicalSchema : List (List Char) → String → Option String → List Field → Prop
  | intro {before body : List (List Char)} {name : List Char} {package : Option String}
      {fields : List Field} (hpre : LexicalPreamble before package) (hname : isName name = true)
      (hbody : LexicalPieces (body.splitOn [';']) fields) :
      LexicalSchema
        (before ++ "struct".toList :: name :: ['\x7b'] :: (body ++ [['\x7d'], [';']]))
        (String.ofList name) package fields

private theorem isMark_open : IsMark '\x7b' := ⟨by decide, by decide⟩

private theorem isMark_close : IsMark '\x7d' := ⟨by decide, by decide⟩

private theorem isMark_semicolon : IsMark ';' := ⟨by decide, by decide⟩

private theorem isMark_openBracket : IsMark '[' := ⟨by decide, by decide⟩

private theorem isWord_struct : IsWord "struct".toList := isWord_of_isName (by decide)

private theorem isWord_package : IsWord "package".toList := isWord_of_isName (by decide)

/-! ### The lexemes of the parts -/

/-- No word goes on in an extent. -/
theorem Extent.stops_isDottedChar {s : List Char} {length : Option UInt32} (h : Extent s length) :
    Stops isDottedChar s := by
  cases h with
  | scalar => exact stops_nil _
  | array => exact stops_cons.mpr (by decide)

/-- The lexemes of an extent. -/
theorem Extent.lexical {s : List Char} {length : Option UInt32} (h : Extent s length) :
    LexicalExtent (lexemes s) length := by
  cases h with
  | scalar => exact .scalar
  | array hw hd hn hw' =>
    have hclose : Stops isDottedChar [']'] := stops_cons.mpr (by decide)
    rw [lexemes_mark_cons isMark_openBracket, lexemes_blanks_append hw,
      lexemes_word_blanks_append (isWord_of_decimal? hd) hw' hclose]
    exact .array hd hn

/-- The lexemes of a declaration. -/
theorem Declares.lexical {s : List Char} {f : Field} (h : Declares s f) :
    LexicalDeclares (lexemes s) f := by
  cases h with
  | @intro type sep name w extent length hsep hname hw he =>
    rw [lexemes_word_separator_append (isWord_of_isName (isName_typeName type)) hsep,
      lexemes_word_blanks_append (isWord_of_isName hname) hw he.stops_isDottedChar]
    exact .intro hname he.lexical

/-- The lexemes of pieces. -/
theorem Pieces.lexical {pieces : List (List Char)} {fields : List Field}
    (h : Pieces pieces fields) : LexicalPieces (pieces.map lexemes) fields := by
  induction h with
  | nil => exact .nil
  | blank hw _ ih =>
    rw [List.map_cons, lexemes_of_blanks hw]
    exact .blank ih
  | field hw hd hw' _ ih =>
    rw [List.map_cons, lexemes_blanks_append hw, lexemes_append_blanks _ hw']
    exact .field hd.lexical ih

/-- The lexemes of a preamble, whatever follows it. -/
theorem Preamble.exists_lexical {s : List Char} {package : Option String}
    (h : Preamble s package) :
    ∃ ts, LexicalPreamble ts package ∧ ∀ r, lexemes (s ++ r) = ts ++ lexemes r := by
  cases h with
  | blank hw => exact ⟨[], .blank, lexemes_blanks_append hw⟩
  | package hw hsep hname hw₁ hw₂ =>
    refine ⟨_, .package hname, fun r ↦ ?_⟩
    have hend (r : List Char) : Stops isDottedChar (';' :: r) := stops_cons.mpr (by decide)
    simp only [List.append_assoc, List.cons_append]
    rw [lexemes_blanks_append hw, lexemes_word_separator_append isWord_package hsep,
      lexemes_word_blanks_append (isWord_of_isDotted hname) hw₁ (hend _),
      lexemes_mark_cons isMark_semicolon, lexemes_blanks_append hw₂]
    rfl

/-- The lexemes of a schema. -/
theorem Schema.lexical {s : List Char} {structName : String} {package : Option String}
    {fields : List Field} (h : Schema s structName package fields) :
    LexicalSchema (lexemes s) structName package fields := by
  cases h with
  | @intro before sep name w body w₁ w₂ _ _ hpre hsep hname hw hbody hw₁ hw₂ =>
    obtain ⟨ts, hts, he⟩ := hpre.exists_lexical
    have hopen (r : List Char) : Stops isDottedChar ('\x7b' :: r) := stops_cons.mpr (by decide)
    rw [he, lexemes_word_separator_append isWord_struct hsep,
      lexemes_word_blanks_append (isWord_of_isName hname) hw (hopen _),
      lexemes_mark_cons isMark_open, lexemes_append_mark isMark_close, lexemes_blanks_append hw₁,
      lexemes_mark_cons isMark_semicolon, lexemes_of_blanks hw₂]
    refine .intro hts hname ?_
    rw [splitOn_lexemes isMark_semicolon]
    exact hbody.pieces.lexical

/-! ### Texts of given lexemes -/

/-- A text of the lexemes of an extent is an extent with blanks around it. -/
theorem LexicalExtent.exists_extent {s : List Char} {length : Option UInt32}
    (h : LexicalExtent (lexemes s) length) :
    ∃ w extent w', Blanks w ∧ Extent extent length ∧ Blanks w' ∧ s = w ++ (extent ++ w') := by
  generalize he : lexemes s = ts at h
  cases h with
  | scalar => exact ⟨s, [], [], lexemes_eq_nil_iff.mp he, .scalar, blanks_nil, by simp⟩
  | array hd hn =>
    obtain ⟨w, r, hw, _, rfl, hr⟩ := exists_of_lexemes_eq_cons he
    obtain ⟨w₁, r₁, hw₁, _, rfl, hr₁⟩ := exists_of_lexemes_eq_cons hr
    obtain ⟨w₂, r₂, hw₂, _, rfl, hr₂⟩ := exists_of_lexemes_eq_cons hr₁
    refine ⟨w, _, r₂, hw, .array hw₁ hd hn hw₂, lexemes_eq_nil_iff.mp hr₂, ?_⟩
    simp

/-- A text of the lexemes of a declaration is a declaration with blanks around it. -/
theorem LexicalDeclares.exists_declares {s : List Char} {f : Field}
    (h : LexicalDeclares (lexemes s) f) :
    ∃ w text w', Blanks w ∧ Declares text f ∧ Blanks w' ∧ s = w ++ (text ++ w') := by
  generalize he : lexemes s = ts at h
  cases h with
  | @intro type name extent length hname hx =>
    obtain ⟨w, sep, r, hw, hsep, rfl, rfl⟩ := exists_of_lexemes_eq_words
      (isWord_of_isName (isName_typeName type)) (isWord_of_isName hname) he
    obtain ⟨w₁, text, w', hw₁, hextent, hw', rfl⟩ := hx.exists_extent
    refine ⟨w, _, w', hw, .intro hsep hname hw₁ hextent, hw', ?_⟩
    simp

/-- Texts of the lexemes of pieces are pieces. -/
theorem LexicalPieces.pieces {pieces : List (List Char)} {fields : List Field}
    (h : LexicalPieces (pieces.map lexemes) fields) : Pieces pieces fields := by
  induction pieces generalizing fields with
  | nil =>
    cases h with
    | nil => exact .nil
  | cons p pieces ih =>
    rw [List.map_cons] at h
    generalize he : lexemes p = ts at h
    cases h with
    | blank h => exact .blank (lexemes_eq_nil_iff.mp he) (ih h)
    | field hd h =>
      rw [← he] at hd
      obtain ⟨w, text, w', hw, htext, hw', rfl⟩ := hd.exists_declares
      exact .field hw htext hw' (ih h)

/-- A text that starts with the lexemes of a preamble starts with a preamble, which may take up
more blanks. -/
theorem LexicalPreamble.exists_preamble {s : List Char} {package : Option String}
    {ts ts' : List (List Char)} (h : LexicalPreamble ts package) (he : lexemes s = ts ++ ts') :
    ∃ before r, (∀ w, Blanks w → Preamble (before ++ w) package) ∧ s = before ++ r ∧
      lexemes r = ts' := by
  cases h with
  | blank => exact ⟨[], s, fun w hw ↦ .blank hw, rfl, he⟩
  | @package name hname =>
    obtain ⟨w, sep, r, hw, hsep, rfl, hr⟩ :=
      exists_of_lexemes_eq_words isWord_package (isWord_of_isDotted hname) he
    obtain ⟨w₁, r₁, hw₁, _, rfl, hr₁⟩ := exists_of_lexemes_eq_cons hr
    refine ⟨w ++ ("package".toList ++ (sep ++ (name ++ (w₁ ++ [';'])))), r₁, fun w₂ hw₂ ↦ ?_, ?_,
      hr₁⟩
    · have hpre := Preamble.package hw hsep hname hw₁ hw₂
      simpa only [List.append_assoc, List.singleton_append] using hpre
    · simp only [List.append_assoc]

/-- A text of the lexemes of a schema is a schema. -/
theorem LexicalSchema.schema {s : List Char} {structName : String} {package : Option String}
    {fields : List Field} (h : LexicalSchema (lexemes s) structName package fields) :
    Schema s structName package fields := by
  generalize he : lexemes s = ts at h
  cases h with
  | @intro before body name _ _ hpre hname hbody =>
    obtain ⟨pre, r, hblanks, rfl, hr⟩ := hpre.exists_preamble he
    obtain ⟨w, sep, r₁, hw, hsep, rfl, hr₁⟩ :=
      exists_of_lexemes_eq_words isWord_struct (isWord_of_isName hname) hr
    obtain ⟨w₁, r₂, hw₁, _, rfl, hr₂⟩ := exists_of_lexemes_eq_cons hr₁
    obtain ⟨body, r₃, rfl, rfl, hr₃⟩ := exists_of_lexemes_eq_append_mark hr₂
    obtain ⟨w₂, r₄, hw₂, _, rfl, hr₄⟩ := exists_of_lexemes_eq_cons hr₃
    rw [splitOn_lexemes isMark_semicolon] at hbody
    have hschema := Schema.intro (hblanks w hw) hsep hname hw₁ (body_iff.mpr hbody.pieces) hw₂
      (lexemes_eq_nil_iff.mp hr₄)
    simpa only [List.append_assoc, List.singleton_append] using hschema

/-- A text is a schema exactly if its lexemes are those of one. -/
theorem schema_iff_lexemes {s : List Char} {structName : String} {package : Option String}
    {fields : List Field} :
    Schema s structName package fields ↔ LexicalSchema (lexemes s) structName package fields :=
  ⟨Schema.lexical, LexicalSchema.schema⟩

/-! ### Pairs of lexemes -/

/-- Whether a lexeme is a word or an opening bracket. In a schema these come in pairs: a keyword
and a name, a type and a name, a bracket and a length. -/
def isPaired (t : List Char) : Bool := t.all isDottedChar || t == ['[']

/-- A word is one of a pair. -/
theorem isPaired_of_isWord {t : List Char} (ht : IsWord t) : isPaired t = true := by
  rw [isPaired, List.all_eq_true.mpr ht.dotted, Bool.true_or]

/-- A list that is split at an element that does not count is counted part by part. -/
private theorem countP_flatten_splitOn {α : Type} [BEq α] [LawfulBEq α] {p : α → Bool} {x : α}
    (hx : p x = false) (xs : List α) : (xs.splitOn x).flatten.countP p = xs.countP p := by
  induction xs with
  | nil => simp
  | cons a xs ih =>
    rw [List.splitOn_cons_eq_if_modifyHead]
    split
    · next ha => simp [eq_of_beq ha, hx, ih]
    · obtain ⟨head, parts, hs⟩ := List.exists_cons_of_ne_nil (List.splitOn_ne_nil x xs)
      rw [hs] at ih ⊢
      simp only [List.modifyHead_cons, List.flatten_cons, List.cons_append,
        List.countP_cons] at ih ⊢
      rw [ih]

/-- The words and opening brackets that end a declaration come in pairs. -/
theorem LexicalExtent.even_paired {ts : List (List Char)} {length : Option UInt32}
    (h : LexicalExtent ts length) : ts.countP isPaired % 2 = 0 := by
  cases h with
  | scalar => rfl
  | array hd hn =>
    have hopen : isPaired ['['] = true := by decide
    have hclose : isPaired [']'] = false := by decide
    simp [isPaired_of_isWord (isWord_of_decimal? hd), hopen, hclose]

/-- The words and opening brackets of a declaration come in pairs. -/
theorem LexicalDeclares.even_paired {ts : List (List Char)} {f : Field}
    (h : LexicalDeclares ts f) : ts.countP isPaired % 2 = 0 := by
  cases h with
  | @intro type name extent length hname hx =>
    have htype := isPaired_of_isWord (isWord_of_isName (isName_typeName type))
    have hfield := isPaired_of_isWord (isWord_of_isName hname)
    have hextent := hx.even_paired
    simp only [List.countP_cons, htype, hfield, if_true]
    omega

/-- The words and opening brackets of pieces come in pairs. -/
theorem LexicalPieces.even_paired {pieces : List (List (List Char))} {fields : List Field}
    (h : LexicalPieces pieces fields) : pieces.flatten.countP isPaired % 2 = 0 := by
  induction h with
  | nil => rfl
  | blank _ ih => exact ih
  | field hd _ ih =>
    have hpiece := hd.even_paired
    rw [List.flatten_cons, List.countP_append]
    omega

/-- The words and opening brackets of a preamble come in pairs. -/
theorem LexicalPreamble.even_paired {ts : List (List Char)} {package : Option String}
    (h : LexicalPreamble ts package) : ts.countP isPaired % 2 = 0 := by
  cases h with
  | blank => rfl
  | package hname =>
    have hkeyword := isPaired_of_isWord isWord_package
    have hword := isPaired_of_isWord (isWord_of_isDotted hname)
    have hend : [[';']].countP isPaired = 0 := by decide
    simp only [List.countP_cons, hkeyword, hword, hend, if_true]

/-- The words and opening brackets of a schema come in pairs. -/
theorem LexicalSchema.even_paired {ts : List (List Char)} {structName : String}
    {package : Option String} {fields : List Field}
    (h : LexicalSchema ts structName package fields) : ts.countP isPaired % 2 = 0 := by
  cases h with
  | @intro before body name _ _ hpre hname hbody =>
    have hbefore := hpre.even_paired
    have hstruct := isPaired_of_isWord isWord_struct
    have hword := isPaired_of_isWord (isWord_of_isName hname)
    have hopen : isPaired ['\x7b'] = false := by decide
    have hend : [['\x7d'], [';']].countP isPaired = 0 := by decide
    have hpieces := hbody.even_paired
    rw [countP_flatten_splitOn (by decide)] at hpieces
    simp only [List.countP_append, List.countP_cons, hstruct, hword, hopen, hend, if_true,
      Bool.false_eq_true, if_false]
    omega

end WireSchema.Grammar
