import WireSchema.Proofs.Schema.Acceptance
import WireSchema.Proofs.Schema.Gaps
import WireSchema.Proofs.Schema.LexicalGrammar

/-!
# Block comments between texts

A block comment goes without a trace, so that the text before it and the text behind it stand right
next to each other. Where the two do not touch, their lexemes are what they were, and the comment
separates no less than a space does. Where they touch, it makes one word of the last word and the
first one, and since the words and opening brackets of a schema come in pairs, a text with one word
less is never a schema together with the text that has a space there.
-/

namespace WireSchema

open Text Grammar Comment

/-- The text of a block comment. -/
def blockComment (c : String) : String := "/*" ++ c ++ "*/"

/-- The struct name, the package and the fields of a schema, if it is accepted. -/
def Message.shape? (source : String) : Option (String × Option String × List Field) :=
  (parse source).toOption.map fun m ↦ (m.structName, m.package, m.fields)

/-! ### Erasing one comment -/

namespace Comment

/-- Of a block comment between two texts nothing is left. -/
theorem erase_block {s c u : List Char} (hs : '/' ∉ s) (hu : '/' ∉ u) (hc : ¬['*', '/'] <:+: c) :
    erase (s ++ '/' :: '*' :: (c ++ '*' :: '/' :: u)) = s ++ u := by
  have hblocks :
      eraseBlocks (s ++ '/' :: '*' :: (c ++ '*' :: '/' :: u)) = eraseBlocks (s ++ u) := by
    rw [eraseBlocks_append_of_not_mem hs, eraseBlocks_append_of_not_mem hs, eraseBlocks_block hc]
  have hboth : '/' ∉ s ++ u := by simp [hs, hu]
  rw [erase, hblocks, ← erase, erase_of_not_mem hboth]

end Comment

namespace Message

/-- The characters of a text with a block comment in it. -/
theorem toList_append_blockComment (s c u : String) :
    (s ++ blockComment c ++ u).toList =
      s.toList ++ '/' :: '*' :: (c.toList ++ '*' :: '/' :: u.toList) := by
  simp [blockComment]

/-- The answer only depends on the text without its comments. -/
theorem parse_eq_of_erase {source source' : String}
    (h : erase source.toList = erase source'.toList) : parse source = parse source' := by
  simp only [parse, parseChars, Canonical.form, h]

/-- What is answered of an accepted schema. -/
theorem shape?_eq_some_iff {source structName : String} {package : Option String}
    {fields : List Field} :
    shape? source = some (structName, package, fields) ↔
      Schema (erase source.toList) structName package fields ∧ fields ≠ [] ∧
        (fields.map Field.name).Nodup ∧ totalSize fields ≤ 4294967295 := by
  constructor
  · intro h
    unfold shape? at h
    cases hm : parse source with
    | error e =>
      rw [hm] at h
      cases h
    | ok m =>
      rw [hm] at h
      cases h
      obtain ⟨hschema, hne, hnodup, hsize, _⟩ := parse_eq_ok_iff.mp hm
      exact ⟨hschema, hne, hnodup, hsize⟩
  · rintro ⟨hschema, hne, hnodup, hsize⟩
    let text := String.ofList (Canonical.form source.toList)
    have hm : parse source = .ok ⟨structName, package, fields, text, Fingerprint.ofText text⟩ :=
      parse_eq_ok_iff.mpr ⟨hschema, hne, hnodup, hsize, rfl, rfl⟩
    rw [shape?, hm]
    rfl

/-- What is answered only depends on the lexemes of the text without its comments. -/
theorem shape?_eq_of_lexemes {source source' : String}
    (h : lexemes (erase source.toList) = lexemes (erase source'.toList)) :
    shape? source = shape? source' := by
  apply Option.ext
  rintro ⟨structName, package, fields⟩
  rw [shape?_eq_some_iff, shape?_eq_some_iff, schema_iff_lexemes, schema_iff_lexemes, h]

/-- Of two texts whose lexemes differ in one word only one is accepted. -/
theorem shape?_eq_none_of_joined {source source' : String} {ts ts' : List (List Char)}
    {t t' : List Char} (ht : IsWord t) (ht' : IsWord t')
    (h : lexemes (erase source.toList) = ts ++ (t ++ t') :: ts')
    (h' : lexemes (erase source'.toList) = ts ++ t :: t' :: ts') :
    shape? source = none ∨ shape? source' = none := by
  cases hshape : shape? source with
  | none => exact .inl rfl
  | some found =>
    cases hshape' : shape? source' with
    | none => exact .inr rfl
    | some found' =>
      -- One of the two has an odd number of words and opening brackets.
      have hschema := schema_iff_lexemes.mp (shape?_eq_some_iff.mp hshape).1
      have hschema' := schema_iff_lexemes.mp (shape?_eq_some_iff.mp hshape').1
      have heven := hschema.even_paired
      have heven' := hschema'.even_paired
      simp only [h, h', List.countP_append, List.countP_cons, isPaired_of_isWord ht,
        isPaired_of_isWord ht', isPaired_of_isWord (ht.append ht'), if_true] at heven heven'
      omega

/-- A block comment between two texts without slashes is read as if the texts stood right next to
each other. If they do not touch, that is the same as a space between them; and if they touch, the
comment makes one word of two, and at most one of the texts with the comment and with the space is
accepted. -/
theorem parse_blockComment {s c u : String} (hs : '/' ∉ s.toList) (hu : '/' ∉ u.toList)
    (hc : ¬['*', '/'] <:+: c.toList) :
    parse (s ++ blockComment c ++ u) = parse (s ++ u) ∧
      (touches s.toList u.toList = false →
        lexemes (erase (s ++ blockComment c ++ u).toList) =
          lexemes s.toList ++ lexemes u.toList ∧
        shape? (s ++ blockComment c ++ u) = shape? (s ++ " " ++ u)) ∧
      (touches s.toList u.toList = true →
        (∃ ts t t' ts', lexemes s.toList = ts ++ [t] ∧ lexemes u.toList = t' :: ts' ∧
          lexemes (erase (s ++ blockComment c ++ u).toList) = ts ++ (t ++ t') :: ts') ∧
        (shape? (s ++ blockComment c ++ u) = none ∨ shape? (s ++ " " ++ u) = none)) := by
  have hcomment : erase (s ++ blockComment c ++ u).toList = s.toList ++ u.toList := by
    rw [toList_append_blockComment, erase_block hs hu hc]
  have hjoined : erase (s ++ u).toList = s.toList ++ u.toList := by
    rw [String.toList_append, erase_of_not_mem]
    simp [hs, hu]
  have hspace : lexemes (erase (s ++ " " ++ u).toList) =
      lexemes s.toList ++ lexemes u.toList := by
    have htext : (s ++ " " ++ u).toList = s.toList ++ ([' '] ++ u.toList) := by simp
    have hsep : Separator [' '] := ⟨by simp, by simp [Blanks, isBlank]⟩
    rw [htext, erase_of_not_mem, lexemes_append_separator hsep]
    simp [hs, hu]
  refine ⟨parse_eq_of_erase (hcomment.trans hjoined.symm), fun htouch ↦ ?_, fun htouch ↦ ?_⟩
  · have happend := lexemes_append htouch
    rw [← hcomment] at happend
    exact ⟨happend, shape?_eq_of_lexemes (happend.trans hspace.symm)⟩
  · obtain ⟨ts, t, t', ts', ht, ht', hleft, hright, happend⟩ :=
      exists_lexemes_append_of_touches htouch
    rw [← hcomment] at happend
    refine ⟨⟨ts, t, t', ts', hleft, hright, happend⟩, shape?_eq_none_of_joined ht ht' happend ?_⟩
    rw [hspace, hleft, hright, List.append_assoc]
    rfl

/-- A comment in a name, which makes another name of the two parts, and one behind a name. -/
theorem parse_blockComment_in_schema :
    shape? ("struct A\x7b uint8_t a" ++ blockComment "" ++ "b; \x7d;") =
        some ("A", none, [⟨.uint8, "ab", none⟩]) ∧
      shape? ("struct A\x7b uint8_t a" ++ " " ++ "b; \x7d;") = none ∧
      shape? ("struct A\x7b uint8_t a" ++ blockComment " * " ++ "; \x7d;") =
        shape? ("struct A\x7b uint8_t a" ++ " " ++ "; \x7d;") := by
  have hword := parse_blockComment (s := "struct A\x7b uint8_t a") (c := "") (u := "b; \x7d;")
    (by decide) (by decide) (by decide)
  have hmark := parse_blockComment (s := "struct A\x7b uint8_t a") (c := " * ") (u := "; \x7d;")
    (by decide) (by decide) (by decide)
  have hjoined : shape? ("struct A\x7b uint8_t a" ++ blockComment "" ++ "b; \x7d;") =
      some ("A", none, [⟨.uint8, "ab", none⟩]) := by decide +kernel
  refine ⟨hjoined, ?_, (hmark.2.1 (by decide)).2⟩
  rcases (hword.2.2 (by decide)).2 with hnone | hnone
  · rw [hjoined] at hnone
    cases hnone
  · exact hnone

/-- A block comment is no separator: there are texts that a space between them and a comment
between them do not make the same schema. A comment can stand within a number, and it cannot stand
for the space between a type and a name. -/
theorem blockComment_not_separator :
    (¬ ∀ s c u : String, '/' ∉ s.toList → '/' ∉ u.toList → ¬['*', '/'] <:+: c.toList →
      shape? (s ++ blockComment c ++ u) = shape? (s ++ " " ++ u)) ∧
      shape? ("struct A\x7b uint8_t a[1" ++ blockComment "" ++ "2]; \x7d;") =
        some ("A", none, [⟨.uint8, "a", some 12⟩]) ∧
      shape? ("struct A\x7b uint8_t" ++ blockComment "" ++ "a; \x7d;") = none ∧
      shape? ("struct A\x7b uint8_t" ++ " " ++ "a; \x7d;") =
        some ("A", none, [⟨.uint8, "a", none⟩]) := by
  have htype : shape? ("struct A\x7b uint8_t" ++ blockComment "" ++ "a; \x7d;") = none := by
    decide +kernel
  have hspace : shape? ("struct A\x7b uint8_t" ++ " " ++ "a; \x7d;") =
      some ("A", none, [⟨.uint8, "a", none⟩]) := by decide +kernel
  refine ⟨fun h ↦ ?_, by decide +kernel, htype, hspace⟩
  have heq := h "struct A\x7b uint8_t" "" "a; \x7d;" (by decide) (by decide) (by decide)
  rw [htype, hspace] at heq
  cases heq

end Message

end WireSchema
