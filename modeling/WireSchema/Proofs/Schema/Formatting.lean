import WireSchema.Proofs.Schema.Tokens

/-!
# Formatting schemas

A schema can be written with any gaps between its tokens, with or without a package directive, and
with zeros before its array lengths. The parts of the grammar are found between the tokens of such a
text, and the canonical form is what is left without the spacing. The main statement says that a
text of every formatting is accepted, and that nothing of the formatting is in its descriptor.
-/

namespace WireSchema

open Text Grammar Canonical Comment

/-! ### Spelling -/

/-- An array length in digits, which may start with zeros. -/
structure LengthSpelling where
  digits : List Char
  value : UInt32
  decimal?_digits : decimal? digits = some value.toNat
  value_ne_zero : value ≠ 0

/-- A declaration of a field as it is spelled. -/
structure FieldSpelling where
  type : ScalarType
  name : List Char
  length : Option LengthSpelling
  isName_name : isName name = true

/-- The field that is declared. -/
def FieldSpelling.field (f : FieldSpelling) : Field :=
  ⟨f.type, String.ofList f.name, f.length.map LengthSpelling.value⟩

/-- A schema as it is spelled, whose fields make a message. -/
structure SchemaSpelling where
  package : Option { name : List Char // isDotted name = true }
  name : List Char
  declarations : List FieldSpelling
  isName_name : isName name = true
  declarations_ne_nil : declarations ≠ []
  nodup_names : ((declarations.map FieldSpelling.field).map Field.name).Nodup
  totalSize_le : totalSize (declarations.map FieldSpelling.field) ≤ 4294967295

namespace LengthSpelling

/-- Digits can be in a word. -/
theorem all_isDottedChar_digits (l : LengthSpelling) : l.digits.all isDottedChar = true := by
  apply List.all_eq_true.mpr
  intro c hc
  have hd := (decimal?_eq_some_iff.mp l.decimal?_digits).2.1 c hc
  exact isDottedChar_of_isNameChar (isNameChar_of_isDigit hd)

/-- The tokens of an array length, with its brackets. -/
def tokens (l : LengthSpelling) : List Token :=
  [.mark '[' (by decide), .word l.digits l.all_isDottedChar_digits false, .mark ']' (by decide)]

end LengthSpelling

namespace FieldSpelling

/-- The tokens of the array length, if the field is an array. -/
def lengthTokens (f : FieldSpelling) : List Token :=
  match f.length with
  | none => []
  | some l => l.tokens

/-- The tokens of a declaration, with its semicolon. -/
def tokens (f : FieldSpelling) : List Token :=
  .name f.type.name.toList (isName_typeName f.type) true :: .name f.name f.isName_name false ::
    (f.lengthTokens ++ [.mark ';' (by decide)])

/-- The array length in its brackets, if the field is an array. -/
def lengthText (f : FieldSpelling) : List Char :=
  match f.length with
  | none => []
  | some l => '[' :: (l.digits ++ [']'])

/-- A declaration without anything between its tokens. -/
def text (f : FieldSpelling) : List Char :=
  f.type.name.toList ++ (f.name ++ (f.lengthText ++ [';']))

/-- The tokens of a declaration make up its text. -/
theorem flatMap_tokens (f : FieldSpelling) : f.tokens.flatMap Token.text = f.text := by
  rcases f with ⟨type, name, _ | l, h⟩
  · simp [tokens, lengthTokens, text, lengthText]
  · simp [tokens, lengthTokens, text, lengthText, LengthSpelling.tokens]

end FieldSpelling

namespace SchemaSpelling

/-- The tokens of a package directive, if there is one. -/
def packageTokens : Option { name : List Char // isDotted name = true } → List Token
  | none => []
  | some name =>
    [.word "package".toList (by decide) true, .dotted name.val name.property,
      .mark ';' (by decide)]

/-- The tokens of the struct. -/
def structTokens (schema : SchemaSpelling) : List Token :=
  .word "struct".toList (by decide) true :: .name schema.name schema.isName_name false ::
    .mark '\x7b' (by decide) :: (schema.declarations.flatMap FieldSpelling.tokens ++
      [.mark '\x7d' (by decide), .mark ';' (by decide)])

/-- The tokens of the schema. -/
def tokens (schema : SchemaSpelling) : List Token :=
  packageTokens schema.package ++ schema.structTokens

/-- The struct without anything between its tokens. -/
def text (schema : SchemaSpelling) : List Char :=
  "struct".toList ++ (schema.name ++ '\x7b' ::
    (schema.declarations.flatMap FieldSpelling.text ++ ['\x7d', ';']))

/-- The descriptor of the schema. -/
def message (schema : SchemaSpelling) : Message where
  structName := String.ofList schema.name
  package := schema.package.map fun name ↦ String.ofList name.val
  fields := schema.declarations.map FieldSpelling.field
  canonicalText := String.ofList schema.text
  hash := Fingerprint.ofText (String.ofList schema.text)

/-- The tokens of the struct make up its text. -/
theorem flatMap_structTokens (schema : SchemaSpelling) :
    schema.structTokens.flatMap Token.text = schema.text := by
  have hf : (schema.declarations.flatMap FieldSpelling.tokens).flatMap Token.text =
      schema.declarations.flatMap FieldSpelling.text := by
    simp only [List.flatMap_assoc, FieldSpelling.flatMap_tokens]
  -- The equations of these definitions would evaluate the keyword.
  delta text structTokens
  simp only [List.flatMap_cons, List.flatMap_append, hf, Token.text_word, Token.text_name,
    Token.text_mark, List.flatMap_nil, List.cons_append, List.nil_append]

end SchemaSpelling

/-! ### Reading what is written -/

namespace FieldSpelling

/-- Between the tokens of a declaration its parts are found, and its semicolon ends them. -/
theorem exists_declares (f : FieldSpelling) {ts : List Token} {s : List Char}
    (h : Written false (f.tokens ++ ts) s) :
    ∃ w text w' s', Blanks w ∧ Declares text f.field ∧ Blanks w' ∧ Written false ts s' ∧
      erase s = w ++ (text ++ (w' ++ ';' :: erase s')) := by
  obtain ⟨w, s₁, hw, _, h, he⟩ := h.exists_erase_eq
  obtain ⟨sep, s₂, hsep, hne, h, he₁⟩ := h.exists_erase_eq
  rcases f with ⟨type, name, _ | l, hname⟩
  · obtain ⟨w', s', hw', _, h, he₂⟩ := h.exists_erase_eq
    refine ⟨w, _, w', s', hw, .intro ⟨hne rfl, hsep⟩ hname blanks_nil .scalar, hw', h, ?_⟩
    rw [he, he₁, he₂]
    simp
  · obtain ⟨w₁, s₃, hw₁, _, h, he₂⟩ := h.exists_erase_eq
    obtain ⟨w₂, s₄, hw₂, _, h, he₃⟩ := h.exists_erase_eq
    obtain ⟨w₃, s₅, hw₃, _, h, he₄⟩ := h.exists_erase_eq
    obtain ⟨w', s', hw', _, h, he₅⟩ := h.exists_erase_eq
    have hextent := Extent.array hw₂ l.decimal?_digits l.value_ne_zero hw₃
    refine ⟨w, _, w', s', hw, .intro ⟨hne rfl, hsep⟩ hname hw₁ hextent, hw', h, ?_⟩
    rw [he, he₁, he₂, he₃, he₄, he₅]
    simp

/-- Between the tokens of declarations the pieces of a body are found, up to a closing brace. -/
theorem exists_pieces (fs : List FieldSpelling) {hc : isBlank '\x7d' = false ∧ '\x7d' ≠ '/'}
    {ts : List Token} {s : List Char}
    (h : Written false (fs.flatMap tokens ++ .mark '\x7d' hc :: ts) s) :
    ∃ body s', Pieces (body.splitOn ';') (fs.map field) ∧ Written false ts s' ∧
      erase s = body ++ '\x7d' :: erase s' := by
  induction fs generalizing s with
  | nil =>
    obtain ⟨w, s', hw, _, h, he⟩ := h.exists_erase_eq
    refine ⟨w, s', ?_, h, he⟩
    rw [List.splitOn_eq_singleton (hw.not_mem (by decide))]
    exact .blank hw .nil
  | cons f fs ih =>
    rw [List.flatMap_cons, List.append_assoc] at h
    obtain ⟨w, text, w', s₁, hw, hd, hw', h, he⟩ := f.exists_declares h
    obtain ⟨body, s', hp, h, he₁⟩ := ih h
    refine ⟨w ++ (text ++ (w' ++ ';' :: body)), s', ?_, h, ?_⟩
    · have hmem : ';' ∉ w ++ (text ++ w') := by
        intro hm
        have hpiece : Pieces [w ++ (text ++ w')] [f.field] := .field hw hd hw' .nil
        have hchar := hpiece.isDeclarationChar _ List.mem_cons_self ';' hm
        revert hchar
        decide
      have hs := List.splitOn_append_cons_self_of_not_mem hmem body
      simp only [List.append_assoc] at hs
      rw [hs]
      exact .field hw hd hw' hp
    · rw [he, he₁]
      simp

end FieldSpelling

namespace SchemaSpelling

/-- Between the tokens of the struct its parts are found. -/
theorem exists_struct (schema : SchemaSpelling) {s : List Char}
    (h : Written false schema.structTokens s) :
    ∃ w sep w₁ body w₂ w₃, Blanks w ∧ Separator sep ∧ Blanks w₁ ∧
      Body body (schema.declarations.map FieldSpelling.field) ∧ Blanks w₂ ∧ Blanks w₃ ∧
      erase s = w ++ ("struct".toList ++ (sep ++ (schema.name ++ (w₁ ++ '\x7b' ::
        (body ++ '\x7d' :: (w₂ ++ ';' :: w₃)))))) := by
  obtain ⟨w, s₁, hw, _, h, he⟩ := h.exists_erase_eq
  obtain ⟨sep, s₂, hsep, hne, h, he₁⟩ := h.exists_erase_eq
  obtain ⟨w₁, s₃, hw₁, _, h, he₂⟩ := h.exists_erase_eq
  obtain ⟨body, s₄, hp, h, he₃⟩ := FieldSpelling.exists_pieces schema.declarations h
  obtain ⟨w₂, s₅, hw₂, _, h, he₄⟩ := h.exists_erase_eq
  refine ⟨w, sep, w₁, body, w₂, erase s₅, hw, ⟨hne rfl, hsep⟩, hw₁, body_iff.mpr hp, hw₂,
    h.blanks_erase, ?_⟩
  rw [he, he₁, he₂, he₃, he₄]
  rfl

/-- Between the tokens of the package directive the preamble is found. -/
theorem exists_preamble (schema : SchemaSpelling) {s : List Char}
    (h : Written false schema.tokens s) :
    ∃ before s', (∀ w, Blanks w → Preamble (before ++ w) schema.message.package) ∧
      Written false schema.structTokens s' ∧ erase s = before ++ erase s' := by
  rw [tokens] at h
  rw [message]
  generalize schema.package = package at h
  rcases package with _ | ⟨name, hname⟩
  · exact ⟨[], s, fun w hw ↦ .blank hw, h, rfl⟩
  · obtain ⟨w, s₁, hw, _, h, he⟩ := h.exists_erase_eq
    obtain ⟨sep, s₂, hsep, hne, h, he₁⟩ := h.exists_erase_eq
    obtain ⟨w₁, s₃, hw₁, _, h, he₂⟩ := h.exists_erase_eq
    refine ⟨w ++ ("package".toList ++ (sep ++ (name ++ (w₁ ++ [';'])))), s₃, fun w₂ hw₂ ↦ ?_, h, ?_⟩
    · have hpre := Preamble.package hw ⟨hne rfl, hsep⟩ hname hw₁ hw₂
      simpa only [List.append_assoc, List.cons_append, List.nil_append, Option.map_some] using hpre
    · rw [he, he₁, he₂]
      simp only [Token.text_word, Token.text_dotted, Token.text_mark, List.append_assoc,
        List.cons_append, List.nil_append]

/-- A text of the tokens has the parts of the grammar, and the tokens of the struct are left of its
last ones without their blanks. -/
theorem exists_parts (schema : SchemaSpelling) {s : List Char}
    (h : Written false schema.tokens s) :
    ∃ before sep w body w₁ w₂, Preamble before schema.message.package ∧ Separator sep ∧ Blanks w ∧
      Body body schema.message.fields ∧ Blanks w₁ ∧ Blanks w₂ ∧
      erase s = before ++ ("struct".toList ++ (sep ++ (schema.name ++ (w ++ '\x7b' ::
        (body ++ '\x7d' :: (w₁ ++ ';' :: w₂)))))) ∧
      eraseBlanks ("struct".toList ++ (sep ++ (schema.name ++ (w ++ '\x7b' ::
        (body ++ '\x7d' :: (w₁ ++ ';' :: w₂)))))) = schema.text := by
  obtain ⟨before, s', hpre, h, he⟩ := schema.exists_preamble h
  obtain ⟨w₀, sep, w, body, w₁, w₂, hw₀, hsep, hw, hbody, hw₁, hw₂, hs⟩ := schema.exists_struct h
  refine ⟨before ++ w₀, sep, w, body, w₁, w₂, hpre w₀ hw₀, hsep, hw, hbody, hw₁, hw₂, ?_, ?_⟩
  · rw [he, hs, List.append_assoc]
  · have htokens := h.eraseBlanks_erase
    rwa [hs, eraseBlanks_append, eraseBlanks_of_blanks hw₀, flatMap_structTokens] at htokens

/-- The canonical form of a text of the tokens has the tokens of the struct. -/
theorem form_of_written (schema : SchemaSpelling) {s : List Char}
    (h : Written false schema.tokens s) : form s = schema.text := by
  obtain ⟨before, sep, w, body, w₁, w₂, hpre, hsep, hw, hbody, hw₁, hw₂, he, htext⟩ :=
    schema.exists_parts h
  obtain ⟨w₀, hw₀, hd⟩ :=
    Package.eraseDirectives_schema hpre hsep schema.isName_name hw hbody hw₁ hw₂
  rw [← eraseBlanks_form_of_isPlain h.isPlain, form, eraseBlanks_eraseSpacing, he, hd,
    eraseBlanks_append, eraseBlanks_of_blanks hw₀]
  exact htext

/-- Every formatting of a schema is accepted. The descriptor has the struct name, the package and
the fields of the schema, and its canonical form has the tokens of the struct and nothing else. -/
theorem parse_of_written (schema : SchemaSpelling) {source : String}
    (h : Written false schema.tokens source.toList) :
    Message.parse source = .ok schema.message := by
  obtain ⟨before, sep, w, body, w₁, w₂, hpre, hsep, hw, hbody, hw₁, hw₂, he, _⟩ :=
    schema.exists_parts h
  have hschema : Schema (erase source.toList) schema.message.structName schema.message.package
      schema.message.fields := by
    rw [he]
    exact .intro hpre hsep schema.isName_name hw hbody hw₁ hw₂
  have hform := schema.form_of_written h
  refine Message.parse_eq_ok_iff.mpr ⟨hschema, ?_, schema.nodup_names, schema.totalSize_le,
    congrArg String.ofList hform.symm, rfl⟩
  exact fun hnil ↦ schema.declarations_ne_nil (List.map_eq_nil_iff.mp hnil)

/-- A lamp in a package, with two lights. -/
def lamp : SchemaSpelling where
  package := some ⟨"a.b".toList, by decide⟩
  name := "L".toList
  declarations := [⟨.bool, "on".toList, some ⟨"02".toList, 2, by decide, by decide⟩, by decide⟩]
  isName_name := by decide
  declarations_ne_nil := by decide
  nodup_names := by decide
  totalSize_le := by decide

/-- Spacing and comments of every kind do not show in the descriptor of a lamp. -/
theorem parse_formatted_lamp :
    Written false lamp.tokens
        "/*\n*/package a.b ;//x\rstruct/**/ L\x7bbool\ton[02];\x7d;//".toList ∧
      Message.parse "/*\n*/package a.b ;//x\rstruct/**/ L\x7bbool\ton[02];\x7d;//" =
        .ok ⟨"L", some "a.b", [⟨.bool, "on", some 2⟩], "structL\x7bboolon[02];\x7d;",
          4093415459⟩ := by
  have hs : "/*\n*/package a.b ;//x\rstruct/**/ L\x7bbool\ton[02];\x7d;//".toList =
      "/*\n*/".toList ++ ("package".toList ++ ([' '] ++ ("a.b".toList ++ ([' '] ++ ([';'] ++
      ("//x\r".toList ++ ("struct".toList ++ ("/**/ ".toList ++ ("L".toList ++ ([] ++ (['\x7b'] ++
      ([] ++ ("bool".toList ++ (['\t'] ++ ("on".toList ++ ([] ++ (['['] ++ ([] ++ ("02".toList ++
      ([] ++ ([']'] ++ ([] ++ ([';'] ++ ([] ++ (['\x7d'] ++ ([] ++ ([';'] ++
      "//".toList))))))))))))))))))))))))))) := by decide
  have hcomment : Gap false "/*\n*/".toList [] := .block (c := ['\n']) (by decide) .nil
  have hnote : Gap false "//x\r".toList ['\r'] :=
    .line (c := ['x']) ⟨by simp [isWithinLine], by decide⟩ (.inl rfl) .nil
  have hbetween : Gap false "/**/ ".toList [' '] :=
    .block (c := []) (by decide) (.spacing (by decide) .nil)
  have hend : Gap true "//".toList [] := .lastLine (c := []) ⟨by simp, by decide⟩
  have hspace (a : Char) (ha : isSpacing a = true) : Gap false [a] [a] := .spacing ha .nil
  have h : Written false lamp.tokens
      "/*\n*/package a.b ;//x\rstruct/**/ L\x7bbool\ton[02];\x7d;//".toList := by
    rw [hs]
    refine .cons hcomment nofun (.cons (hspace ' ' rfl) (by simp) (.cons (hspace ' ' rfl) nofun ?_))
    refine .cons hnote nofun (.cons hbetween (by simp) (.cons .nil nofun ?_))
    refine .cons .nil nofun (.cons (hspace '\t' rfl) (by simp) (.cons .nil nofun ?_))
    exact .cons .nil nofun (.cons .nil nofun (.cons .nil nofun (.cons .nil nofun
      (.cons .nil nofun (.nil hend nofun)))))
  refine ⟨h, ?_⟩
  rw [lamp.parse_of_written h]
  decide +kernel

end SchemaSpelling

end WireSchema
