import Mathlib.Data.List.Induction
import WireSchema.Proofs.Schema.CanonicalForm

/-!
# What canonical texts keep

Of a text whose blanks are all spacing, the canonical form keeps the struct name and the statements
of the body without their blanks. It keeps the blank statements too, and the zeros before an array
length, although neither changes a field. The main statement says that of tidy texts, which have
neither, it keeps the struct name and the fields and nothing else.
-/

namespace WireSchema

/-! ### Digits -/

namespace Text

/-- An ASCII digit is written for a number below ten. -/
theorem exists_digitChar {c : Char} (hc : c.isDigit = true) : ∃ d < 10, c = Nat.digitChar d := by
  simp only [Char.isDigit, Bool.and_eq_true, decide_eq_true_eq] at hc
  have hle : 48 ≤ c.toNat := UInt32.le_iff_toNat_le.mp hc.1
  have hge : c.toNat ≤ 57 := UInt32.le_iff_toNat_le.mp hc.2
  have hall : ∀ d < 10, Nat.digitChar d = Char.ofNat (48 + d) := by decide
  refine ⟨c.toNat - 48, by omega, ?_⟩
  rw [hall _ (by omega), Nat.add_sub_cancel' hle, Char.ofNat_toNat]

/-- Digits that do not start with a zero are those of their value. -/
theorem toDigits_ofDigitChars {s : List Char} (hne : s ≠ []) (hd : ∀ c ∈ s, c.isDigit = true)
    (hz : s.head? ≠ some '0') : Nat.toDigits 10 (Nat.ofDigitChars 10 s 0) = s := by
  induction s using List.reverseRecOn with
  | nil => exact absurd rfl hne
  | append_singleton s c ih =>
    obtain ⟨d, hd10, rfl⟩ := exists_digitChar (hd c (by simp))
    rw [Nat.ofDigitChars_append, Nat.ofDigitChars_cons_digitChar_of_lt_ten hd10,
      Nat.ofDigitChars_nil]
    cases s with
    | nil => rw [Nat.ofDigitChars_nil, Nat.mul_zero, Nat.zero_add, Nat.toDigits_of_lt_base hd10,
        List.nil_append]
    | cons a s =>
      have hs := ih (by simp) (fun c hc ↦ hd c (List.mem_append_left _ hc)) (by simpa using hz)
      have hpos : 0 < Nat.ofDigitChars 10 (a :: s) 0 := by
        apply Nat.pos_of_ne_zero
        intro h0
        rw [h0, Nat.toDigits_zero] at hs
        rw [← (List.cons.inj hs).1] at hz
        exact hz rfl
      rw [← Nat.toDigits_append_toDigits (by decide) hpos hd10, hs, Nat.toDigits_of_lt_base hd10]

end Text

/-- A declaration of the field without blanks, and without zeros before its length. -/
def Field.text (f : Field) : List Char :=
  f.type.name.toList ++ (f.name.toList ++
    match f.length with
    | none => []
    | some n => '[' :: (Nat.toDigits 10 n.toNat ++ [']']))

namespace Canonical

open Text Grammar

/-! ### Statements -/

/-- The statements of a body without their blanks, the blank ones among them. -/
def bareStatements (body : List Char) : List (List Char) := (body.splitOn ';').map eraseBlanks

/-- Bodies have the same statements exactly if they are the same without their blanks. -/
theorem bareStatements_eq_iff {body body' : List Char} :
    bareStatements body = bareStatements body' ↔ eraseBlanks body = eraseBlanks body' := by
  simp only [bareStatements, ← splitOn_eraseBlanks]
  constructor
  · intro h
    have hjoin := congrArg ([';'].intercalate ·) h
    simpa only [List.intercalate_splitOn] using hjoin
  · intro h
    rw [h]

/-- A body whose every statement has its semicolon, without other semicolons and without zeros
before an array length. -/
def IsTidyBody (body : List Char) : Prop :=
  ∃ ss, bareStatements body = ss ++ [[]] ∧ ∀ s ∈ ss, s ≠ [] ∧ ¬['[', '0'] <:+: s

/-- A declaration without zeros before its length is that of its field, apart from the blanks. -/
theorem eraseBlanks_eq_text {s : List Char} {f : Field} (h : Declares s f)
    (hz : ¬['[', '0'] <:+: eraseBlanks s) : eraseBlanks s = f.text := by
  obtain ⟨name, extent, hname, hf, he, hs⟩ := eraseBlanks_declares h
  rw [hs] at hz ⊢
  rw [Field.text, hf, String.toList_ofList]
  rcases eraseBlanks_extent he with ⟨hn, hx⟩ | ⟨digits, n, hn, hd, hx⟩
  · rw [hx, hn]
  · rw [hx] at hz ⊢
    rw [hn]
    obtain ⟨hne, hdigits, hvalue⟩ := decimal?_eq_some_iff.mp hd
    have hhead : digits.head? ≠ some '0' := by
      intro h0
      obtain ⟨r, rfl⟩ := List.head?_eq_some_iff.mp h0
      refine hz ⟨f.type.name.toList ++ name, r ++ [']'], ?_⟩
      simp
    have hshortest := toDigits_ofDigitChars hne hdigits hhead
    rw [← hvalue] at hshortest
    simp only [hshortest]

/-- The statements of a tidy body are those of its fields. -/
theorem statements_eq_of_tidy {pieces : List (List Char)} {fields : List Field}
    (h : Pieces pieces fields) {ss : List (List Char)} (hs : pieces.map eraseBlanks = ss ++ [[]])
    (ht : ∀ s ∈ ss, s ≠ [] ∧ ¬['[', '0'] <:+: s) : ss = fields.map Field.text := by
  induction h generalizing ss with
  | nil => simp at hs
  | blank hw h ih =>
    cases ss with
    | nil =>
      -- The blank piece behind the last semicolon is the last one.
      have hnil := List.map_eq_nil_iff.mp (List.cons.inj hs).2
      subst hnil
      cases h
      rfl
    | cons s ss =>
      have he := (List.cons.inj hs).1
      rw [eraseBlanks_of_blanks hw] at he
      exact absurd he.symm (ht s List.mem_cons_self).1
  | field hw hd hw' _ ih =>
    have he := hs
    rw [List.map_cons, eraseBlanks_between hw hw'] at he
    cases ss with
    | nil => exact absurd (List.cons.inj he).1 (eraseBlanks_declares_ne_nil hd)
    | cons s ss =>
      obtain ⟨rfl, hss⟩ := List.cons.inj he
      obtain ⟨hfirst, ht⟩ := List.forall_mem_cons.mp ht
      rw [List.map_cons, eraseBlanks_eq_text hd hfirst.2, ih hss ht]

/-- A tidy body has the statements of its fields, and nothing behind the last semicolon. -/
theorem bareStatements_of_isTidyBody {body : List Char} {fields : List Field}
    (h : Body body fields) (ht : IsTidyBody body) :
    bareStatements body = fields.map Field.text ++ [[]] := by
  obtain ⟨ss, hs, ht⟩ := ht
  rw [hs, statements_eq_of_tidy h.pieces hs ht]

/-! ### Canonical texts -/

/-- The body of an accepted text has its fields. -/
theorem body_of_outline {source : String} {m : Message} {outline : Outline}
    (h : Message.parse source = .ok m)
    (ho : Outline.ofText (Comment.erase source.toList) = .ok outline) :
    Body outline.body m.fields := by
  obtain ⟨⟨body, declarations, ho', hd, hf⟩, _⟩ := Message.parseChars_eq_ok_iff.mp h
  cases ho.symm.trans ho'
  exact body_iff.mpr (Declaration.ofBody_toField_iff.mp ⟨declarations, hd, hf⟩)

/-- The canonical form of an accepted plain text is put together from its outline. -/
theorem exists_outline_of_isPlain {source : String} {m : Message} (h : Message.parse source = .ok m)
    (hs : IsPlain source.toList) :
    ∃ outline name, Outline.ofText (Comment.erase source.toList) = .ok outline ∧
      isName name = true ∧ m.structName = String.ofList name ∧
      form source.toList =
        "struct".toList ++ (name ++ '\x7b' :: (eraseBlanks outline.body ++ ['\x7d', ';'])) := by
  obtain ⟨⟨body, _, ho, _⟩, _⟩ := Message.parseChars_eq_ok_iff.mp h
  have hbody := body_of_outline h ho
  obtain ⟨before, sep, name, w, w₁, w₂, hpre, hsep, hname, hw, hw₁, hw₂, hn, he⟩ :=
    Outline.exists_of_ofText_eq_ok ho
  refine ⟨_, name, ho, hname, hn, ?_⟩
  rw [← eraseBlanks_form_of_isPlain hs]
  exact eraseBlanks_form_of_parts hpre hsep hname hw hbody hw₁ hw₂ he

/-- Two accepted plain texts have one canonical text exactly if they have the same struct name and
the same statements without their blanks. -/
theorem canonicalText_eq_iff {source source' : String} {m m' : Message}
    (h : Message.parse source = .ok m) (h' : Message.parse source' = .ok m')
    (hs : IsPlain source.toList) (hs' : IsPlain source'.toList) :
    ∃ outline outline', Outline.ofText (Comment.erase source.toList) = .ok outline ∧
      Outline.ofText (Comment.erase source'.toList) = .ok outline' ∧
      (m.canonicalText = m'.canonicalText ↔
        m.structName = m'.structName ∧
          bareStatements outline.body = bareStatements outline'.body) := by
  obtain ⟨outline, name, ho, hname, hn, hform⟩ := exists_outline_of_isPlain h hs
  obtain ⟨outline', name', ho', hname', hn', hform'⟩ := exists_outline_of_isPlain h' hs'
  obtain ⟨_, _, ht, _⟩ := Message.parseChars_eq_ok_iff.mp h
  obtain ⟨_, _, ht', _⟩ := Message.parseChars_eq_ok_iff.mp h'
  refine ⟨outline, outline', ho, ho', ?_⟩
  rw [ht, ht', hn, hn', hform, hform', String.ofList_inj, String.ofList_inj, bareStatements_eq_iff]
  constructor
  · intro he
    have hstop (s : List Char) : Stops isNameChar ('\x7b' :: s) := stops_cons.mpr (by decide)
    obtain ⟨rfl, hrest⟩ := name_append_inj hname hname' (hstop _) (hstop _)
      (List.append_cancel_left he)
    exact ⟨rfl, List.append_cancel_right (List.cons.inj hrest).2⟩
  · rintro ⟨rfl, hb⟩
    rw [hb]

/-- A text whose blanks are all spacing, apart from those in its comments, with a tidy body. -/
structure IsTidy (s : List Char) : Prop where
  isPlain : IsPlain s
  isTidyBody : ∀ outline, Outline.ofText (Comment.erase s) = .ok outline → IsTidyBody outline.body

/-- A plain text is tidy if the body of its outline is. -/
theorem IsPlain.isTidy {s body : List Char} (h : IsPlain s)
    (hb : (Outline.ofText (Comment.erase s)).toOption.map Outline.body = some body)
    (ht : IsTidyBody body) : IsTidy s := by
  refine ⟨h, fun outline ho ↦ ?_⟩
  rw [ho] at hb
  cases hb
  exact ht

/-- Two accepted tidy texts with the same struct name and the same fields have one canonical text
and one hash. -/
theorem canonicalText_eq_of_shape_eq {source source' : String} {m m' : Message}
    (h : Message.parse source = .ok m) (h' : Message.parse source' = .ok m')
    (ht : IsTidy source.toList) (ht' : IsTidy source'.toList)
    (hname : m.structName = m'.structName) (hfields : m.fields = m'.fields) :
    m.canonicalText = m'.canonicalText ∧ m.hash = m'.hash := by
  obtain ⟨outline, outline', ho, ho', hiff⟩ := canonicalText_eq_iff h h' ht.isPlain ht'.isPlain
  have hs := bareStatements_of_isTidyBody (body_of_outline h ho) (ht.isTidyBody outline ho)
  have hs' := bareStatements_of_isTidyBody (body_of_outline h' ho') (ht'.isTidyBody outline' ho')
  have htext : m.canonicalText = m'.canonicalText := by
    refine hiff.mpr ⟨hname, ?_⟩
    rw [hs, hs', hfields]
  obtain ⟨_, _, _, hh⟩ := Message.parseChars_eq_ok_iff.mp h
  obtain ⟨_, _, _, hh'⟩ := Message.parseChars_eq_ok_iff.mp h'
  exact ⟨htext, by rw [hh, hh', htext]⟩

/-- A package, comments and spacing leave the canonical text of a tidy text. -/
theorem canonicalText_eq_of_respaced_text :
    ∃ m m', Message.parse "package p; struct A\x7b uint8_t a[7]; \x7d;" = .ok m ∧
      Message.parse "struct A // a\n\x7buint8_t\ta [ 7 ];\x7d;" = .ok m' ∧
      m.structName = m'.structName ∧ m.fields = m'.fields ∧
      m.canonicalText = m'.canonicalText ∧ m.hash = m'.hash := by
  let m : Message :=
    ⟨"A", some "p", [⟨.uint8, "a", some 7⟩], "structA\x7buint8_ta[7];\x7d;", 2419139864⟩
  let m' : Message := { m with package := none }
  have h : Message.parse "package p; struct A\x7b uint8_t a[7]; \x7d;" = .ok m := by
    decide +kernel
  have h' : Message.parse "struct A // a\n\x7buint8_t\ta [ 7 ];\x7d;" = .ok m' := by
    decide +kernel
  have ht : IsTidy "package p; struct A\x7b uint8_t a[7]; \x7d;".toList := by
    refine @IsPlain.isTidy _ " uint8_t a[7]; ".toList (by decide +kernel) (by decide +kernel) ?_
    exact ⟨["uint8_ta[7]".toList], by decide +kernel, by decide +kernel⟩
  have ht' : IsTidy "struct A // a\n\x7buint8_t\ta [ 7 ];\x7d;".toList := by
    refine @IsPlain.isTidy _ "uint8_t\ta [ 7 ];".toList (by decide +kernel) (by decide +kernel) ?_
    exact ⟨["uint8_ta[7]".toList], by decide +kernel, by decide +kernel⟩
  exact ⟨m, m', h, h', rfl, rfl, canonicalText_eq_of_shape_eq h h' ht ht' rfl rfl⟩

/-- Other blanks than spacing, blank statements, a missing last semicolon and zeros before a length
change the canonical text and the hash, but not the fields. -/
theorem canonicalText_ne_of_shape_eq :
    ∃ m, Message.parse "struct A\x7b uint8_t a[7]; \x7d;" = .ok m ∧
      ∀ source ∈ ["struct A\x7b\x0buint8_t a[7]; \x7d;", "struct A\x7b uint8_t a[7];; \x7d;",
          "struct A\x7b uint8_t a[7] \x7d;", "struct A\x7b uint8_t a[07]; \x7d;"],
        ∃ m', Message.parse source = .ok m' ∧ m'.structName = m.structName ∧
          m'.fields = m.fields ∧ m'.canonicalText ≠ m.canonicalText ∧ m'.hash ≠ m.hash := by
  let m : Message :=
    ⟨"A", none, [⟨.uint8, "a", some 7⟩], "structA\x7buint8_ta[7];\x7d;", 2419139864⟩
  refine ⟨m, by decide +kernel, ?_⟩
  simp only [List.forall_mem_cons]
  refine ⟨⟨{ m with canonicalText := "structA\x7b\x0buint8_ta[7];\x7d;", hash := 3633479817 }, ?_⟩,
    ⟨{ m with canonicalText := "structA\x7buint8_ta[7];;\x7d;", hash := 4089759625 }, ?_⟩,
    ⟨{ m with canonicalText := "structA\x7buint8_ta[7]\x7d;", hash := 3013056887 }, ?_⟩,
    ⟨{ m with canonicalText := "structA\x7buint8_ta[07];\x7d;", hash := 1435178494 }, ?_⟩, by simp⟩
  all_goals decide +kernel

end Canonical

end WireSchema
