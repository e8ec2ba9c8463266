import WireSchema.Proofs.Schema.Outlines
import WireSchema.Schema.Canonical

/-!
# Erasing directives from schemas

Directives are erased wherever a word starts. A directive is a keyword, blanks and another name, so
none starts in a name that no other name follows; and from its header on, only the names of a schema
have the letter that directives start with, and what follows them and blanks is a bracket, a
semicolon or a brace. All of this stays true if some of the blanks are left out. The main statement
says that of a schema only the directive of the preamble goes.
-/

namespace WireSchema.Package

open Text Grammar

/-! ### Places without a directive -/

/-- A directive starts with the letter of its keyword. -/
theorem directive?_cons_of_ne {c : Char} (hc : c ≠ 'p') (r : List Char) :
    directive? (c :: r) = none := by
  cases h : directive? (c :: r) with
  | none => rfl
  | some found =>
    obtain ⟨sep, w, _, _, _, hs⟩ := directive?_eq_some_iff.mp h
    exact absurd (List.cons.inj hs).1 hc

/-- No directive starts with a name that is not followed by another one. -/
theorem directive?_name_append {name r r' : List Char} {c : Char} (hn : isName name = true)
    (ht : trimStart r = c :: r') (hc : isDottedChar c = false) :
    directive? (name ++ r) = none := by
  have hr : Stops isNameChar r := by
    obtain ⟨w, hw, hs⟩ := exists_blanks_append_trimStart r
    rw [hs, ht]
    apply Stops.append _ hw.isNameChar
    exact stops_cons.mpr (Bool.or_eq_false_iff.mp hc).1
  cases h : directive? (name ++ r) with
  | none => rfl
  | some found =>
    obtain ⟨sep, w, hsep, hd, hw, hs⟩ := directive?_eq_some_iff.mp h
    -- Both texts start with a longest run of name characters: the name, and the keyword.
    have hname : name = "package".toList := by
      rw [← takeWhile_append_of_stops (isNameChar_of_mem_name hn) hr, hs]
      exact takeWhile_append_of_stops (isNameChar_of_mem_name (by decide))
        (hsep.stops_isNameChar _)
    rw [hname] at hs
    have hrest := congrArg trimStart (List.append_cancel_left hs)
    rw [ht, trimStart_append_of_stops hsep.2 (stops_isBlank_dotted_append hd _)] at hrest
    obtain ⟨a, dotted, ha⟩ := List.exists_cons_of_ne_nil (ne_nil_of_isDotted hd)
    have hm := isDottedChar_of_mem_dotted hd a (ha ▸ List.mem_cons_self)
    rw [ha] at hrest
    rw [← (List.cons.inj hrest).1, hc] at hm
    cases hm

/-! ### Texts without a directive -/

/-- No directive starts anywhere in `u` if `t` follows, not even within a word. -/
def NoneStarts (u t : List Char) : Prop := ∀ v, v ≠ [] → v <:+ u → directive? (v ++ t) = none

/-- None starts in a text if none starts at its first character or in what follows that. -/
theorem noneStarts_cons_iff {c : Char} {u t : List Char} :
    NoneStarts (c :: u) t ↔ directive? (c :: (u ++ t)) = none ∧ NoneStarts u t := by
  constructor
  · intro h
    exact ⟨h (c :: u) (by simp) (List.suffix_refl _),
      fun v hv hs ↦ h v hv (hs.trans (List.suffix_cons c u))⟩
  · rintro ⟨hc, hu⟩ v hv hs
    rcases List.suffix_cons_iff.mp hs with rfl | hs
    · exact hc
    · exact hu v hv hs

/-- None starts in two texts in a row if none starts in either. -/
theorem NoneStarts.append {u v t : List Char} (hu : NoneStarts u (v ++ t)) (hv : NoneStarts v t) :
    NoneStarts (u ++ v) t := by
  induction u with
  | nil => exact hv
  | cons c u ih =>
    obtain ⟨hc, hu⟩ := noneStarts_cons_iff.mp hu
    rw [List.cons_append, noneStarts_cons_iff, List.append_assoc]
    exact ⟨hc, ih hu⟩

/-- None starts in a text without the letter that directives start with. -/
theorem noneStarts_of_not_mem {u : List Char} (hu : 'p' ∉ u) (t : List Char) : NoneStarts u t := by
  intro v hv hs
  obtain ⟨c, v, rfl⟩ := List.exists_cons_of_ne_nil hv
  apply directive?_cons_of_ne
  rintro rfl
  exact hu (hs.mem List.mem_cons_self)

/-- None starts in a name with blanks behind it up to a character that names do not have. -/
theorem noneStarts_name {name w : List Char} (hn : isName name = true) (hw : Blanks w) {c : Char}
    (hd : isDottedChar c = false) (hb : isBlank c = false) (t : List Char) :
    NoneStarts name (w ++ c :: t) := by
  intro v hv hs
  obtain ⟨a, v, rfl⟩ := List.exists_cons_of_ne_nil hv
  by_cases ha : a = 'p'
  · -- What is left of a name from a letter on is a name.
    have hv : isName (a :: v) = true := by
      have hstart : isNameStart a = true := by rw [ha]; decide
      rw [isName, hstart, Bool.true_and, List.all_eq_true]
      exact fun x hx ↦ isNameChar_of_mem_name hn x (hs.mem (List.mem_cons_of_mem a hx))
    exact directive?_name_append hv (trimStart_append_of_stops hw (stops_cons.mpr hb)) hd
  · exact directive?_cons_of_ne ha _

/-- A text in which no directive starts stays. -/
theorem eraseDirectives_append {u t : List Char} (hu : NoneStarts u t) (inWord : Bool) :
    eraseDirectives inWord (u ++ t) = u ++ eraseDirectives (endsInWord inWord u) t := by
  induction u generalizing inWord with
  | nil => rfl
  | cons c u ih =>
    obtain ⟨hc, hu⟩ := noneStarts_cons_iff.mp hu
    have hat : directiveAt? inWord (c :: (u ++ t)) = none := by
      cases inWord with
      | true => rfl
      | false => exact hc
    rw [List.cons_append, eraseDirectives]
    split
    · next hd =>
      rw [hat] at hd
      cases hd
    · rw [ih hu]
      rfl

/-- Erasing directives adds no characters. -/
theorem mem_of_mem_eraseDirectives {inWord : Bool} {s : List Char} {c : Char}
    (h : c ∈ eraseDirectives inWord s) : c ∈ s := by
  induction inWord, s using eraseDirectives.induct with
  | case1 inWord =>
    rw [eraseDirectives] at h
    exact h
  | case2 inWord a r name rest hd ih =>
    have hdirective : directive? (a :: r) = some (name, rest) := by
      cases inWord with
      | true => cases hd
      | false => exact hd
    obtain ⟨sep, w, _, _, _, hs⟩ := directive?_eq_some_iff.mp hdirective
    rw [eraseDirectives] at h
    split at h
    · next hd' =>
      cases hd'.symm.trans hd
      rw [hs]
      simp [ih h]
    · next hd' => cases hd'.symm.trans hd
  | case3 inWord a r hd ih =>
    rw [eraseDirectives] at h
    split at h
    · next hd' => cases hd'.symm.trans hd
    · rcases List.mem_cons.mp h with rfl | h
      · exact List.mem_cons_self
      · exact List.mem_cons_of_mem _ (ih h)

/-! ### Schemas without some of their blanks -/

private theorem not_mem_extent {extent : List Char} {length : Option UInt32}
    (h : Extent extent length) : 'p' ∉ extent := by
  cases h with
  | scalar => simp
  | @array w digits w' n hw hd _ hw' =>
    have hdigits : 'p' ∉ digits := by
      intro hm
      have hdigit := (decimal?_eq_some_iff.mp hd).2.1 'p' hm
      revert hdigit
      decide
    simp only [List.mem_cons, List.mem_append, not_or]
    exact ⟨by decide, hw.not_mem (by decide), hdigits, hw'.not_mem (by decide), by decide, by simp⟩

section Thinned

variable {keep : Char → Bool}

/-- Leaving characters out adds no letter that directives start with. -/
private theorem noneStarts_filter {u : List Char} (hu : 'p' ∉ u) (t : List Char) :
    NoneStarts (u.filter keep) t :=
  noneStarts_of_not_mem (fun hm ↦ hu (List.mem_filter.mp hm).1) t

/-- Blanks stay blanks. -/
private theorem blanks_filter {w : List Char} (hw : Blanks w) : Blanks (w.filter keep) :=
  fun c hc ↦ hw c (List.mem_filter.mp hc).1

variable (hkeep : ∀ c, isBlank c = false → keep c = true)

include hkeep

/-- A name keeps all its characters. -/
private theorem filter_of_isName {name : List Char} (h : isName name = true) :
    name.filter keep = name :=
  List.filter_eq_self.mpr fun c hc ↦
    hkeep c (isBlank_of_isNameChar (isNameChar_of_mem_name h c hc))

/-- Behind the name of a declaration and blanks stands its extent or what follows. -/
private theorem exists_behind_name {extent w w' : List Char} {length : Option UInt32}
    (h : Extent extent length) (hw : Blanks w) (hw' : Blanks w') {c : Char}
    (hd : isDottedChar c = false) (hb : isBlank c = false) (t : List Char) :
    ∃ w₀ a r, (w ++ (extent ++ w')).filter keep ++ c :: t = w₀ ++ a :: r ∧ Blanks w₀ ∧
      isDottedChar a = false ∧ isBlank a = false := by
  cases h with
  | scalar => exact ⟨_, c, t, rfl, blanks_filter (hw.append hw'), hd, hb⟩
  | array _ _ _ _ =>
    have hopen : keep '[' = true := hkeep '[' (by decide)
    simp only [List.filter_append, List.append_assoc, List.cons_append,
      List.filter_cons_of_pos hopen]
    exact ⟨_, '[', _, rfl, blanks_filter hw, by decide, by decide⟩

/-- No directive starts in a declaration with its blanks. -/
private theorem noneStarts_declares {text w w' : List Char} {f : Field} (h : Declares text f)
    (hw : Blanks w) (hw' : Blanks w') {c : Char} (hd : isDottedChar c = false)
    (hb : isBlank c = false) (t : List Char) :
    NoneStarts ((w ++ (text ++ w')).filter keep) (c :: t) := by
  cases h with
  | @intro type sep name w₁ extent length hsep hname hw₁ he =>
    have hfront : 'p' ∉ w ++ (type.name.toList ++ sep) := by
      simp only [List.mem_append, not_or]
      exact ⟨hw.not_mem (by decide), by cases type <;> decide, hsep.2.not_mem (by decide)⟩
    have hback : 'p' ∉ w₁ ++ (extent ++ w') := by
      simp only [List.mem_append, not_or]
      exact ⟨hw₁.not_mem (by decide), not_mem_extent he, hw'.not_mem (by decide)⟩
    have hparts : w ++ (type.name.toList ++ (sep ++ (name ++ (w₁ ++ extent))) ++ w') =
        (w ++ (type.name.toList ++ sep)) ++ (name ++ (w₁ ++ (extent ++ w'))) := by
      simp
    obtain ⟨w₀, a, r, hbehind, hw₀, hda, hba⟩ := exists_behind_name hkeep he hw₁ hw' hd hb t
    have hmiddle := noneStarts_name hname hw₀ hda hba r
    rw [← hbehind] at hmiddle
    rw [hparts, List.filter_append, List.filter_append name, filter_of_isName hkeep hname]
    exact (noneStarts_filter hfront _).append (hmiddle.append (noneStarts_filter hback _))

/-- No directive starts in a piece of a body. -/
private theorem noneStarts_piece {pieces : List (List Char)} {fields : List Field}
    (h : Pieces pieces fields) {c : Char} (hd : isDottedChar c = false) (hb : isBlank c = false) :
    ∀ p ∈ pieces, ∀ t, NoneStarts (p.filter keep) (c :: t) := by
  induction h with
  | nil => simp
  | blank hw _ ih =>
    exact List.forall_mem_cons.mpr
      ⟨fun t ↦ noneStarts_filter (hw.not_mem (by decide)) (c :: t), ih⟩
  | field hw hdeclares hw' _ ih =>
    exact List.forall_mem_cons.mpr
      ⟨fun t ↦ noneStarts_declares hkeep hdeclares hw hw' hd hb t, ih⟩

/-- No directive starts in pieces between semicolons up to a closing brace. -/
private theorem noneStarts_pieces {pieces : List (List Char)} {fields : List Field}
    (h : Pieces pieces fields) (t : List Char) :
    NoneStarts (([';'].intercalate pieces).filter keep) ('\x7d' :: t) := by
  have hpiece {c : Char} := noneStarts_piece hkeep h (c := c)
  have hsemicolon : [';'].filter keep = [';'] := by simp [hkeep ';' (by decide)]
  clear h
  induction pieces with
  | nil => exact noneStarts_of_not_mem (by simp) _
  | cons p pieces ih =>
    have hlast := fun {c : Char} hd hb ↦ (List.forall_mem_cons.mp (hpiece (c := c) hd hb)).2
    cases pieces with
    | nil =>
      rw [List.intercalate_singleton]
      exact hpiece (by decide) (by decide) p List.mem_cons_self t
    | cons q pieces =>
      rw [List.intercalate_cons_cons, List.filter_append, List.filter_append, hsemicolon,
        List.append_assoc]
      refine (hpiece (by decide) (by decide) p List.mem_cons_self _).append ?_
      exact (noneStarts_of_not_mem (by decide) _).append (ih hlast)

/-- No directive starts in a schema from its header on, whichever of its blanks are left out. -/
theorem noneStarts_struct {sep name w body w₁ w₂ : List Char} {fields : List Field}
    (hsep : Separator sep) (hname : isName name = true) (hw : Blanks w) (hbody : Body body fields)
    (hw₁ : Blanks w₁) (hw₂ : Blanks w₂) :
    NoneStarts (("struct".toList ++ (sep ++ (name ++ (w ++ '\x7b' :: (body ++ '\x7d' ::
      (w₁ ++ ';' :: w₂)))))).filter keep) [] := by
  have hfront : 'p' ∉ "struct".toList ++ sep := by
    rw [List.mem_append, not_or]
    exact ⟨by decide, hsep.2.not_mem (by decide)⟩
  have hback : 'p' ∉ '\x7d' :: (w₁ ++ ';' :: w₂) := by
    simp only [List.mem_cons, List.mem_append, not_or]
    exact ⟨by decide, hw₁.not_mem (by decide), by decide, hw₂.not_mem (by decide)⟩
  have hopen : keep '\x7b' = true := hkeep '\x7b' (by decide)
  have hclose : keep '\x7d' = true := hkeep '\x7d' (by decide)
  have hpieces := noneStarts_pieces hkeep hbody.pieces
  rw [List.intercalate_splitOn] at hpieces
  have hparts : "struct".toList ++ (sep ++ (name ++ (w ++ '\x7b' :: (body ++ '\x7d' ::
      (w₁ ++ ';' :: w₂))))) =
        ("struct".toList ++ sep) ++ (name ++ (w ++ '\x7b' :: (body ++ '\x7d' ::
          (w₁ ++ ';' :: w₂)))) := by simp
  rw [hparts, List.filter_append, List.filter_append name, filter_of_isName hkeep hname,
    List.filter_append w, List.filter_cons_of_pos hopen, List.filter_append body]
  refine (noneStarts_filter hfront _).append (NoneStarts.append ?_
    ((noneStarts_filter (hw.not_mem (by decide)) _).append (noneStarts_cons_iff.mpr ⟨?_, ?_⟩)))
  · rw [List.append_nil]
    exact noneStarts_name hname (blanks_filter hw) (by decide) (by decide) _
  · exact directive?_cons_of_ne (by decide) _
  · refine NoneStarts.append ?_ (noneStarts_filter hback [])
    rw [List.append_nil, List.filter_cons_of_pos hclose]
    exact hpieces _

end Thinned

/-! ### Schemas -/

/-- Of a preamble the blanks around its directive stay. -/
theorem eraseDirectives_preamble {before : List Char} {package : Option String}
    (h : Preamble before package) :
    ∃ w, Blanks w ∧ ∀ t, eraseDirectives false (before ++ t) = w ++ eraseDirectives false t := by
  have hblanks {w : List Char} (hw : Blanks w) (t : List Char) :
      eraseDirectives false (w ++ t) = w ++ eraseDirectives false t := by
    rw [eraseDirectives_append (noneStarts_of_not_mem (hw.not_mem (by decide)) t) false,
      endsInWord_of_blanks hw]
  cases h with
  | blank hw => exact ⟨before, hw, hblanks hw⟩
  | @package w sep name w₁ w₂ hw hsep hname hw₁ hw₂ =>
    refine ⟨w ++ w₂, hw.append hw₂, fun t ↦ ?_⟩
    have hd : directive? ("package".toList ++ (sep ++ (name ++ (w₁ ++ ';' :: (w₂ ++ t))))) =
        some (name, w₂ ++ t) := directive?_eq_some_iff.mpr ⟨sep, w₁, hsep, hname, hw₁, rfl⟩
    have hgo : eraseDirectives false ("package".toList ++
        (sep ++ (name ++ (w₁ ++ ';' :: (w₂ ++ t))))) = eraseDirectives false (w₂ ++ t) := by
      change eraseDirectives false ('p' :: ("ackage".toList ++ _)) = _
      rw [eraseDirectives]
      split
      · next n rest hn =>
        have he := hn.symm.trans hd
        cases he
        rfl
      · next hn =>
        have he := hn.symm.trans hd
        cases he
    simp only [List.append_assoc, List.cons_append]
    rw [hblanks hw, hgo, hblanks hw₂]

/-- Of a schema only the directive of the preamble goes, and blanks stay in its place. -/
theorem eraseDirectives_schema {before sep name w body w₁ w₂ : List Char} {package : Option String}
    {fields : List Field} (hpre : Preamble before package) (hsep : Separator sep)
    (hname : isName name = true) (hw : Blanks w) (hbody : Body body fields) (hw₁ : Blanks w₁)
    (hw₂ : Blanks w₂) :
    ∃ w₀, Blanks w₀ ∧
      eraseDirectives false (before ++ ("struct".toList ++ (sep ++ (name ++ (w ++
        '\x7b' :: (body ++ '\x7d' :: (w₁ ++ ';' :: w₂))))))) =
      w₀ ++ ("struct".toList ++ (sep ++ (name ++ (w ++
        '\x7b' :: (body ++ '\x7d' :: (w₁ ++ ';' :: w₂)))))) := by
  obtain ⟨w₀, hw₀, hpreamble⟩ := eraseDirectives_preamble hpre
  refine ⟨w₀, hw₀, ?_⟩
  let keep : Char → Bool := fun _ ↦ true
  have hkeep : ∀ c, isBlank c = false → keep c = true := fun _ _ ↦ rfl
  have hnone := noneStarts_struct hkeep hsep hname hw hbody hw₁ hw₂
  rw [List.filter_eq_self.mpr fun _ _ ↦ rfl] at hnone
  have hstays := eraseDirectives_append hnone false
  rw [List.append_nil] at hstays
  rw [hpreamble, hstays, eraseDirectives, List.append_nil]

end WireSchema.Package
