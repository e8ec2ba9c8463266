import WireSchema.Proofs.Schema.Acceptance
import WireSchema.Proofs.Schema.Directives

/-!
# Reading canonical forms

The canonical form of a schema has lost the blanks between its words, so that a type and the name
behind it stand together. It can still be read in only one way, even after the blanks that it kept
are left out too: no type name begins another one, a field name ends before its bracket or at its
semicolon, and no semicolon is in a piece. The main statement says that two schemas with one
canonical form have the same struct name and the same fields.
-/

namespace WireSchema.Canonical

open Text Grammar

/-! ### Leaving out blanks -/

/-- The text without its blanks. -/
def eraseBlanks (s : List Char) : List Char := s.filter fun c ↦ !isBlank c

/-- Texts that are put together lose their blanks one by one. -/
@[simp] theorem eraseBlanks_append (s t : List Char) :
    eraseBlanks (s ++ t) = eraseBlanks s ++ eraseBlanks t := List.filter_append ..

/-- A text without blanks stays. -/
theorem eraseBlanks_of_forall {s : List Char} (h : ∀ c ∈ s, isBlank c = false) :
    eraseBlanks s = s := by
  apply List.filter_eq_self.mpr
  intro c hc
  rw [h c hc]
  rfl

/-- A character that is no blank stays. -/
theorem eraseBlanks_cons {c : Char} (hc : isBlank c = false) (s : List Char) :
    eraseBlanks (c :: s) = c :: eraseBlanks s := by
  simp [eraseBlanks, hc]

/-- Nothing is left of a run of blanks. -/
theorem eraseBlanks_of_blanks {w : List Char} (hw : Blanks w) : eraseBlanks w = [] := by
  apply List.filter_eq_nil_iff.mpr
  intro c hc
  simp [hw c hc]

/-- A name has no blanks. -/
theorem eraseBlanks_of_isName {name : List Char} (h : isName name = true) :
    eraseBlanks name = name :=
  eraseBlanks_of_forall fun c hc ↦ isBlank_of_isNameChar (isNameChar_of_mem_name h c hc)

/-- The spacing that the canonical form drops is blank. -/
theorem isBlank_of_isSpacing {c : Char} (hc : isSpacing c = true) : isBlank c = true := by
  simp only [isSpacing, Bool.or_eq_true, beq_iff_eq] at hc
  rcases hc with ((rfl | rfl) | rfl) | rfl <;> decide

/-- Dropping the spacing first leaves out no other characters than the blanks. -/
theorem eraseBlanks_eraseSpacing (s : List Char) :
    eraseBlanks (eraseSpacing s) = eraseBlanks s := by
  simp only [eraseBlanks, eraseSpacing, List.filter_filter]
  apply List.filter_congr
  intro c _
  cases hs : isSpacing c with
  | false => simp
  | true => simp [isBlank_of_isSpacing hs]

/-- A text whose blanks are all spacing, apart from those in its comments. -/
def IsPlain (s : List Char) : Prop := ∀ c ∈ Comment.erase s, isBlank c = true → isSpacing c = true

instance decidableIsPlain (s : List Char) : Decidable (IsPlain s) := List.decidableBAll _ _

/-- The canonical form of a plain text has no blanks. -/
theorem eraseBlanks_form_of_isPlain {s : List Char} (h : IsPlain s) :
    eraseBlanks (form s) = form s := by
  refine eraseBlanks_of_forall fun c hc ↦ ?_
  obtain ⟨hmem, hspacing⟩ := List.mem_filter.mp hc
  cases hb : isBlank c with
  | false => rfl
  | true =>
    rw [h c (Package.mem_of_mem_eraseDirectives hmem) hb] at hspacing
    cases hspacing

/-- A body without its blanks has the same pieces without theirs. -/
theorem splitOn_eraseBlanks (s : List Char) :
    (eraseBlanks s).splitOn ';' = (s.splitOn ';').map eraseBlanks := by
  induction s with
  | nil => simp [eraseBlanks]
  | cons c s ih =>
    obtain ⟨head, parts, hs⟩ := List.exists_cons_of_ne_nil (List.splitOn_ne_nil ';' s)
    rw [List.splitOn_cons_eq_if_modifyHead c s]
    by_cases hc : c = ';'
    · rw [hc, eraseBlanks_cons (by decide), List.splitOn_cons_eq_if_modifyHead, ih]
      simp [eraseBlanks]
    · have hne : ¬(c == ';') = true := by simpa using hc
      rw [if_neg hne]
      rw [hs] at ih ⊢
      cases hb : isBlank c with
      | true =>
        have he : eraseBlanks (c :: s) = eraseBlanks s := by simp [eraseBlanks, hb]
        rw [he, ih]
        simp [eraseBlanks, hb]
      | false =>
        rw [eraseBlanks_cons hb, List.splitOn_cons_eq_if_modifyHead, if_neg hne, ih]
        simp [eraseBlanks, hb]

/-! ### Reading declarations -/

/-- No type name begins another one. -/
theorem eq_of_typeName_append {type type' : ScalarType} {s s' : List Char}
    (h : type.name.toList ++ s = type'.name.toList ++ s') : type = type' := by
  have hall : ∀ t ∈ ScalarType.all, ∀ t' ∈ ScalarType.all,
      t.name.toList <+: t'.name.toList → t = t' := by decide +kernel
  rcases List.prefix_or_prefix_of_prefix (List.prefix_append type.name.toList s)
    (h ▸ List.prefix_append type'.name.toList s') with hp | hp
  · exact hall _ type.mem_all _ type'.mem_all hp
  · exact (hall _ type'.mem_all _ type.mem_all hp).symm

/-- A name ends where no name character follows. -/
theorem name_append_inj {name name' s s' : List Char} (hn : isName name = true)
    (hn' : isName name' = true) (hs : Stops isNameChar s) (hs' : Stops isNameChar s')
    (h : name ++ s = name' ++ s') : name = name' ∧ s = s' := by
  have he : name = name' := by
    rw [← takeWhile_append_of_stops (isNameChar_of_mem_name hn) hs, h]
    exact takeWhile_append_of_stops (isNameChar_of_mem_name hn') hs'
  subst he
  exact ⟨rfl, List.append_cancel_left h⟩

/-- Without blanks an extent is empty, or a number right between its brackets. -/
theorem eraseBlanks_extent {extent : List Char} {length : Option UInt32}
    (h : Extent extent length) :
    (length = none ∧ eraseBlanks extent = []) ∨
      ∃ digits n, length = some n ∧ decimal? digits = some n.toNat ∧
        eraseBlanks extent = '[' :: (digits ++ [']']) := by
  cases h with
  | scalar => exact .inl ⟨rfl, rfl⟩
  | @array w digits w' n hw hd _ hw' =>
    refine .inr ⟨digits, n, rfl, hd, ?_⟩
    have hdigits : eraseBlanks digits = digits := by
      apply eraseBlanks_of_forall
      intro c hc
      have hdigit := (decimal?_eq_some_iff.mp hd).2.1 c hc
      exact isBlank_of_isNameChar (isNameChar_of_isDigit hdigit)
    rw [eraseBlanks_cons (by decide)]
    simp only [eraseBlanks_append, eraseBlanks_of_blanks hw, eraseBlanks_of_blanks hw', hdigits,
      List.nil_append]
    rfl

/-- No name goes on in an extent. -/
theorem stops_eraseBlanks_extent {extent : List Char} {length : Option UInt32}
    (h : Extent extent length) : Stops isNameChar (eraseBlanks extent) := by
  rcases eraseBlanks_extent h with ⟨_, he⟩ | ⟨digits, n, _, _, he⟩
  · rw [he]
    exact stops_nil _
  · rw [he]
    exact stops_cons.mpr (by decide)

/-- An extent without its blanks has only one length. -/
theorem length_eq_of_eraseBlanks_extent {extent extent' : List Char}
    {length length' : Option UInt32} (h : Extent extent length) (h' : Extent extent' length')
    (he : eraseBlanks extent = eraseBlanks extent') : length = length' := by
  rcases eraseBlanks_extent h with ⟨rfl, hs⟩ | ⟨digits, n, rfl, hd, hs⟩
  · rcases eraseBlanks_extent h' with ⟨rfl, hs'⟩ | ⟨digits', n', rfl, hd', hs'⟩
    · rfl
    · rw [hs, hs'] at he
      cases he
  · rcases eraseBlanks_extent h' with ⟨rfl, hs'⟩ | ⟨digits', n', rfl, hd', hs'⟩
    · rw [hs, hs'] at he
      cases he
    · rw [hs, hs'] at he
      have hdigits : digits = digits' := List.append_cancel_right (List.cons.inj he).2
      rw [hdigits, hd', Option.some.injEq] at hd
      rw [UInt32.toNat_inj.mp hd]

/-- A declaration without its blanks is its type, its name and its extent, one right after the
other. -/
theorem eraseBlanks_declares {text : List Char} {f : Field} (h : Declares text f) :
    ∃ name extent, isName name = true ∧ f.name = String.ofList name ∧ Extent extent f.length ∧
      eraseBlanks text = f.type.name.toList ++ (name ++ eraseBlanks extent) := by
  cases h with
  | @intro type sep name w extent length hsep hname hw he =>
    refine ⟨name, extent, hname, rfl, he, ?_⟩
    simp only [eraseBlanks_append, eraseBlanks_of_isName (isName_typeName type),
      eraseBlanks_of_blanks hsep.2, eraseBlanks_of_isName hname, eraseBlanks_of_blanks hw,
      List.nil_append]

/-- A declaration without its blanks declares only one field. -/
theorem field_eq_of_eraseBlanks {text text' : List Char} {f f' : Field} (h : Declares text f)
    (h' : Declares text' f') (he : eraseBlanks text = eraseBlanks text') : f = f' := by
  obtain ⟨name, extent, hn, hf, hx, ht⟩ := eraseBlanks_declares h
  obtain ⟨name', extent', hn', hf', hx', ht'⟩ := eraseBlanks_declares h'
  rw [ht, ht'] at he
  have htype : f.type = f'.type := eq_of_typeName_append he
  rw [htype] at he
  obtain ⟨hname, hextent⟩ := name_append_inj hn hn' (stops_eraseBlanks_extent hx)
    (stops_eraseBlanks_extent hx') (List.append_cancel_left he)
  have hlength : f.length = f'.length := length_eq_of_eraseBlanks_extent hx hx' hextent
  rw [← hname, ← hf] at hf'
  cases f
  cases f'
  simp only at htype hf' hlength
  rw [htype, hf', hlength]

/-- Something is left of a declaration without its blanks. -/
theorem eraseBlanks_declares_ne_nil {text : List Char} {f : Field} (h : Declares text f) :
    eraseBlanks text ≠ [] := by
  obtain ⟨name, extent, hn, _, _, ht⟩ := eraseBlanks_declares h
  rw [ht]
  simp [ne_nil_of_isName hn]

/-- The blanks around a text go with its own. -/
theorem eraseBlanks_between {w w' : List Char} (hw : Blanks w) (hw' : Blanks w')
    (text : List Char) : eraseBlanks (w ++ (text ++ w')) = eraseBlanks text := by
  simp only [eraseBlanks_append, eraseBlanks_of_blanks hw, eraseBlanks_of_blanks hw',
    List.nil_append, List.append_nil]

/-! ### Reading schemas -/

/-- Pieces without their blanks declare only one list of fields. -/
theorem fields_eq_of_eraseBlanks {pieces pieces' : List (List Char)} {fields fields' : List Field}
    (h : Pieces pieces fields) (h' : Pieces pieces' fields')
    (he : pieces.map eraseBlanks = pieces'.map eraseBlanks) : fields = fields' := by
  induction h generalizing pieces' fields' with
  | nil =>
    cases h' with
    | nil => rfl
    | blank _ _ => cases he
    | field _ _ _ _ => cases he
  | blank hw _ ih =>
    cases h' with
    | nil => cases he
    | blank hw' h' => exact ih h' (List.cons.inj he).2
    | field hw' hd' hw₁' h' =>
      -- Nothing is left of a blank piece, and something of a declaration.
      have hnil := (List.cons.inj he).1
      rw [eraseBlanks_of_blanks hw, eraseBlanks_between hw' hw₁'] at hnil
      exact absurd hnil.symm (eraseBlanks_declares_ne_nil hd')
  | field hw hd hw₁ _ ih =>
    cases h' with
    | nil => cases he
    | blank hw' _ =>
      have hnil := (List.cons.inj he).1
      rw [eraseBlanks_of_blanks hw', eraseBlanks_between hw hw₁] at hnil
      exact absurd hnil (eraseBlanks_declares_ne_nil hd)
    | field hw' hd' hw₁' h' =>
      have htext := (List.cons.inj he).1
      rw [eraseBlanks_between hw hw₁, eraseBlanks_between hw' hw₁'] at htext
      rw [field_eq_of_eraseBlanks hd hd' htext, ih h' (List.cons.inj he).2]

/-- The canonical form of a schema without its blanks is its header, its body and its end, without
theirs. -/
theorem eraseBlanks_form_of_parts {s before sep name w body w₁ w₂ : List Char}
    {package : Option String} {fields : List Field} (hpre : Preamble before package)
    (hsep : Separator sep) (hname : isName name = true) (hw : Blanks w) (hbody : Body body fields)
    (hw₁ : Blanks w₁) (hw₂ : Blanks w₂)
    (hs : Comment.erase s = before ++ ("struct".toList ++ (sep ++ (name ++ (w ++ '\x7b' ::
      (body ++ '\x7d' :: (w₁ ++ ';' :: w₂))))))) :
    eraseBlanks (form s) =
      "struct".toList ++ (name ++ '\x7b' :: (eraseBlanks body ++ ['\x7d', ';'])) := by
  obtain ⟨w₀, hw₀, he⟩ := Package.eraseDirectives_schema hpre hsep hname hw hbody hw₁ hw₂
  have hkeyword : eraseBlanks "struct".toList = "struct".toList := by decide
  have hopen (t : List Char) : eraseBlanks ('\x7b' :: t) = '\x7b' :: eraseBlanks t :=
    eraseBlanks_cons (by decide) t
  have hclose (t : List Char) : eraseBlanks ('\x7d' :: t) = '\x7d' :: eraseBlanks t :=
    eraseBlanks_cons (by decide) t
  have hend (t : List Char) : eraseBlanks (';' :: t) = ';' :: eraseBlanks t :=
    eraseBlanks_cons (by decide) t
  rw [form, hs, eraseBlanks_eraseSpacing, he]
  simp only [eraseBlanks_append, hkeyword, hopen, hclose, hend, eraseBlanks_of_isName hname,
    eraseBlanks_of_blanks hw₀, eraseBlanks_of_blanks hsep.2, eraseBlanks_of_blanks hw,
    eraseBlanks_of_blanks hw₁, eraseBlanks_of_blanks hw₂, List.nil_append]

/-- The canonical form of a schema can be read without its blanks. -/
theorem eraseBlanks_form {s : List Char} {structName : String} {package : Option String}
    {fields : List Field} (h : Schema (Comment.erase s) structName package fields) :
    ∃ name body, isName name = true ∧ structName = String.ofList name ∧ Body body fields ∧
      eraseBlanks (form s) =
        "struct".toList ++ (name ++ '\x7b' :: (eraseBlanks body ++ ['\x7d', ';'])) := by
  generalize hs : Comment.erase s = t at h
  cases h with
  | @intro before sep name w body w₁ w₂ package fields hpre hsep hname hw hbody hw₁ hw₂ =>
    exact ⟨name, body, hname, rfl, hbody,
      eraseBlanks_form_of_parts hpre hsep hname hw hbody hw₁ hw₂ hs⟩

/-- Two schemas with one canonical form have the same struct name and the same fields: types, names
and lengths, in the same order. -/
theorem shape_eq_of_canonicalText {source source' : String} {m m' : Message}
    (h : Message.parse source = .ok m) (h' : Message.parse source' = .ok m')
    (ht : m.canonicalText = m'.canonicalText) :
    m.structName = m'.structName ∧ m.fields = m'.fields := by
  obtain ⟨hread, _, hform, _⟩ := Message.parseChars_eq_ok_iff.mp h
  obtain ⟨hread', _, hform', _⟩ := Message.parseChars_eq_ok_iff.mp h'
  have hschema := Message.readsTo_iff.mp hread
  have hschema' := Message.readsTo_iff.mp hread'
  obtain ⟨name, body, hname, hn, hbody, he⟩ := eraseBlanks_form hschema
  obtain ⟨name', body', hname', hn', hbody', he'⟩ := eraseBlanks_form hschema'
  have hs : form source.toList = form source'.toList := by
    apply String.ofList_injective
    rw [← hform, ← hform', ht]
  rw [hs, he'] at he
  have hstop (s : List Char) : Stops isNameChar ('\x7b' :: s) := stops_cons.mpr (by decide)
  obtain ⟨rfl, hrest⟩ := name_append_inj hname' hname (hstop _) (hstop _)
    (List.append_cancel_left he)
  have hb : eraseBlanks body = eraseBlanks body' :=
    (List.append_cancel_right (List.cons.inj hrest).2).symm
  have hpieces : (body.splitOn ';').map eraseBlanks = (body'.splitOn ';').map eraseBlanks := by
    rw [← splitOn_eraseBlanks, ← splitOn_eraseBlanks, hb]
  exact ⟨hn.trans hn'.symm, fields_eq_of_eraseBlanks hbody.pieces hbody'.pieces hpieces⟩

/-- A directive and other spacing leave the canonical form and with it the shape. -/
theorem shape_eq_of_respaced_text :
    ∃ m m', Message.parse "package p; struct A\x7b bool package;\x7d;" = .ok m ∧
      Message.parse "struct A\n\x7b bool package ; \x7d ;" = .ok m' ∧
      m.canonicalText = m'.canonicalText ∧ m.structName = m'.structName ∧
      m.fields = m'.fields := by
  let m : Message :=
    ⟨"A", some "p", [⟨.bool, "package", none⟩], "structA\x7bboolpackage;\x7d;", 3959902645⟩
  let m' : Message := { m with package := none }
  have h : Message.parse "package p; struct A\x7b bool package;\x7d;" = .ok m := by decide +kernel
  have h' : Message.parse "struct A\n\x7b bool package ; \x7d ;" = .ok m' := by decide +kernel
  exact ⟨m, m', h, h', rfl, shape_eq_of_canonicalText h h' rfl⟩

end WireSchema.Canonical
