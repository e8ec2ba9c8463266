import WireSchema.Proofs.Schema.Grammar
import WireSchema.Schema.Outline

/-!
# Reading outlines

Each part of an outline is found exactly where the grammar has it. The search for a header takes
the first place that fits; there is no earlier one in a preamble, since a semicolon comes before
every brace there. The main statement says when a text is split into its package, its struct name
and a body without braces.
-/

namespace WireSchema

open Text Grammar

/-! ### Package directives -/

/-- A directive is read exactly if the text starts with one. -/
theorem Package.directive?_eq_some_iff {s name rest : List Char} :
    directive? s = some (name, rest) ↔
      ∃ sep w, Separator sep ∧ isDotted name = true ∧ Blanks w ∧
        s = "package".toList ++ (sep ++ (name ++ (w ++ ';' :: rest))) := by
  simp only [directive?, Option.bind_eq_bind, Option.bind_eq_some_iff, Prod.exists,
    skipWord?_eq_some_iff, skipBlanks?_eq_some_iff, scanDotted?_eq_some_iff,
    skipChar?_eq_some_iff, Option.some.injEq, Prod.mk.injEq]
  constructor
  · rintro ⟨_, rfl, _, ⟨sep, hsep, _, rfl⟩, name, r', ⟨hn, _, rfl⟩, rest, ht, rfl, rfl⟩
    obtain ⟨w, hw, hs⟩ := exists_blanks_append_trimStart r'
    exact ⟨sep, w, hsep, hn, hw, by rw [← ht, ← hs]⟩
  · rintro ⟨sep, w, hsep, hn, hw, rfl⟩
    refine ⟨_, rfl, _, ⟨sep, hsep, stops_isBlank_dotted_append hn _, rfl⟩, name, _,
      ⟨hn, ?_, rfl⟩, rest, ?_, rfl, rfl⟩
    · apply Stops.append _ hw.isDottedChar
      exact stops_cons.mpr (by decide)
    · exact trimStart_append_of_stops hw (stops_cons.mpr (by decide))

namespace Outline

/-! ### Headers -/

/-- A header is read exactly if the text starts with one. -/
theorem header?_eq_some_iff {s name rest : List Char} :
    header? s = some (name, rest) ↔
      ∃ sep w, Separator sep ∧ isName name = true ∧ Blanks w ∧
        s = "struct".toList ++ (sep ++ (name ++ (w ++ '\x7b' :: rest))) := by
  simp only [header?, Option.bind_eq_bind, Option.bind_eq_some_iff, Prod.exists,
    skipWord?_eq_some_iff, skipBlanks?_eq_some_iff, scanName?_eq_some_iff,
    skipChar?_eq_some_iff, Option.some.injEq, Prod.mk.injEq]
  constructor
  · rintro ⟨_, rfl, _, ⟨sep, hsep, _, rfl⟩, name, r', ⟨hn, _, rfl⟩, rest, ht, rfl, rfl⟩
    obtain ⟨w, hw, hs⟩ := exists_blanks_append_trimStart r'
    exact ⟨sep, w, hsep, hn, hw, by rw [← ht, ← hs]⟩
  · rintro ⟨sep, w, hsep, hn, hw, rfl⟩
    refine ⟨_, rfl, _, ⟨sep, hsep, stops_isBlank_name_append hn _, rfl⟩, name, _,
      ⟨hn, ?_, rfl⟩, rest, ?_, rfl, rfl⟩
    · apply Stops.append _ hw.isNameChar
      exact stops_cons.mpr (by decide)
    · exact trimStart_append_of_stops hw (stops_cons.mpr (by decide))

/-- A header starts with the letter of its keyword. -/
theorem header?_cons_of_ne {c : Char} (hc : c ≠ 's') (r : List Char) : header? (c :: r) = none := by
  cases h : header? (c :: r) with
  | none => rfl
  | some found =>
    obtain ⟨sep, w, _, _, _, hs⟩ := header?_eq_some_iff.mp h
    exact absurd (List.cons.inj hs).1 hc

/-- No header starts where a semicolon comes before every opening brace. -/
theorem header?_append_semicolon {u : List Char} (hu : '\x7b' ∉ u) (r : List Char) :
    header? (u ++ ';' :: r) = none := by
  cases h : header? (u ++ ';' :: r) with
  | none => rfl
  | some found =>
    obtain ⟨sep, w, hsep, hn, hw, hs⟩ := header?_eq_some_iff.mp h
    have hv : ';' ∉ "struct".toList ++ (sep ++ (found.1 ++ w)) := by
      simp only [List.mem_append, not_or]
      exact ⟨by decide, hsep.2.not_mem (by decide), not_mem_of_isName hn (by decide),
        hw.not_mem (by decide)⟩
    have hne := append_cons_ne_append_cons (by decide) hu hv r found.2
    simp only [List.append_assoc] at hne
    exact absurd hs hne

/-- A header that the search answers is one, and the text before it is answered too. -/
theorem exists_header_of_splitHeader? {inWord : Bool} {s before name rest : List Char}
    (h : splitHeader? inWord s = some (before, name, rest)) :
    ∃ t, header? t = some (name, rest) ∧ s = before ++ t := by
  induction s generalizing inWord before with
  | nil => cases h
  | cons c s ih =>
    simp only [splitHeader?] at h
    split at h
    · next hh =>
      cases h
      refine ⟨c :: s, ?_, rfl⟩
      cases inWord with
      | true => cases hh
      | false => exact hh
    · obtain ⟨⟨before', found⟩, hf, he⟩ := Option.map_eq_some_iff.mp h
      cases he
      obtain ⟨t, ht, rfl⟩ := ih hf
      exact ⟨t, ht, rfl⟩

/-- The search goes on past a text in which no header starts. -/
theorem splitHeader?_append {u t : List Char} (inWord : Bool)
    (hu : ∀ v, v ≠ [] → v <:+ u → header? (v ++ t) = none) :
    splitHeader? inWord (u ++ t) =
      (splitHeader? (endsInWord inWord u) t).map fun (before, found) ↦ (u ++ before, found) := by
  induction u generalizing inWord with
  | nil => simp [endsInWord]
  | cons c u ih =>
    have hc : headerAt? inWord (c :: (u ++ t)) = none := by
      cases inWord with
      | true => rfl
      | false => exact hu (c :: u) (by simp) (List.suffix_refl _)
    have hi := ih (isWordChar c) fun v hv hs ↦ hu v hv (hs.trans (List.suffix_cons c u))
    rw [List.cons_append, splitHeader?, hc]
    simp only [hi, Option.map_map]
    rfl

/-- The search goes on past a text without the letter that headers start with. -/
theorem splitHeader?_append_of_not_mem {u t : List Char} (inWord : Bool) (hu : 's' ∉ u) :
    splitHeader? inWord (u ++ t) =
      (splitHeader? (endsInWord inWord u) t).map fun (before, found) ↦ (u ++ before, found) := by
  apply splitHeader?_append
  intro v hv hs
  obtain ⟨c, v, rfl⟩ := List.exists_cons_of_ne_nil hv
  apply header?_cons_of_ne
  rintro rfl
  exact hu (hs.mem List.mem_cons_self)

/-- The search goes on past a preamble, to a place where no word goes on. -/
theorem splitHeader?_preamble {before : List Char} {package : Option String}
    (h : Preamble before package) (t : List Char) :
    splitHeader? false (before ++ t) =
      (splitHeader? false t).map fun (s, found) ↦ (before ++ s, found) := by
  cases h with
  | blank hw =>
    have hs := splitHeader?_append_of_not_mem (t := t) false (hw.not_mem (by decide))
    rwa [endsInWord_of_blanks hw] at hs
  | @package w sep name w₁ w₂ hw hsep hname hw₁ hw₂ =>
    -- A header that starts in the directive would have its brace after the semicolon.
    have hopen : '\x7b' ∉ w ++ ("package".toList ++ (sep ++ (name ++ w₁))) := by
      simp only [List.mem_append, not_or]
      exact ⟨hw.not_mem (by decide), by decide, hsep.2.not_mem (by decide),
        not_mem_of_isDotted hname (by decide), hw₁.not_mem (by decide)⟩
    have hfirst := splitHeader?_append (t := ';' :: (w₂ ++ t)) false fun v _ hv ↦
      header?_append_semicolon (fun hm ↦ hopen (hv.mem hm)) (w₂ ++ t)
    have hletter : 's' ∉ ';' :: w₂ := by
      simp only [List.mem_cons, not_or]
      exact ⟨by decide, hw₂.not_mem (by decide)⟩
    have hsecond (inWord : Bool) := splitHeader?_append_of_not_mem (t := t) inWord hletter
    have hend (inWord : Bool) : endsInWord inWord (';' :: w₂) = false := endsInWord_of_blanks hw₂
    simp only [List.append_assoc, List.cons_append] at hfirst hsecond ⊢
    rw [hfirst, hsecond, hend, Option.map_map]
    congr 1

/-- A text is split at its header behind a preamble. -/
theorem splitHeader?_of_header {before t name rest : List Char} {package : Option String}
    (hpre : Preamble before package) (h : header? t = some (name, rest)) :
    splitHeader? false (before ++ t) = some (before, name, rest) := by
  cases t with
  | nil => cases h
  | cons c t =>
    have ht : splitHeader? false (c :: t) = some ([], name, rest) := by
      rw [splitHeader?, headerAt?, if_neg (by decide), h]
    rw [splitHeader?_preamble hpre, ht]
    simp

/-! ### What stands before the header -/

private theorem preamble?_directive {w sep name w₁ w₂ : List Char} (hw : Blanks w)
    (hsep : Separator sep) (hname : isDotted name = true) (hw₁ : Blanks w₁) (hw₂ : Blanks w₂) :
    preamble? (w ++ ("package".toList ++ (sep ++ (name ++ (w₁ ++ ';' :: w₂))))) =
      some (some name) := by
  have hp : Stops isBlank ("package".toList ++ (sep ++ (name ++ (w₁ ++ ';' :: w₂)))) :=
    stops_cons.mpr (by decide)
  have hd : Package.directive? (trimStart (w ++ ("package".toList ++
      (sep ++ (name ++ (w₁ ++ ';' :: w₂)))))) = some (name, w₂) := by
    rw [trimStart_append_of_stops hw hp]
    exact Package.directive?_eq_some_iff.mpr ⟨sep, w₁, hsep, hname, hw₁, rfl⟩
  rw [preamble?, if_neg, hd]
  · simp only [all_isBlank_iff.mpr hw₂, if_true]
  · intro hall
    have hb := all_isBlank_iff.mp hall 'p' (by simp)
    revert hb
    decide

/-- A preamble is accepted exactly if it is one. -/
theorem preamble?_eq_some_iff {s : List Char} {package : Option (List Char)} :
    preamble? s = some package ↔ Preamble s (package.map String.ofList) := by
  constructor
  · intro h
    unfold preamble? at h
    split at h
    · next hall =>
      cases h
      exact .blank (all_isBlank_iff.mp hall)
    · split at h
      · next name rest hd =>
        split at h
        · next hall =>
          cases h
          obtain ⟨sep, w₁, hsep, hn, hw₁, ht⟩ := Package.directive?_eq_some_iff.mp hd
          obtain ⟨w, hw, hs⟩ := exists_blanks_append_trimStart s
          rw [hs, ht]
          exact .package hw hsep hn hw₁ (all_isBlank_iff.mp hall)
        · cases h
      · cases h
  · intro h
    generalize hp : package.map String.ofList = found at h
    cases h with
    | blank hw =>
      rw [Option.map_eq_none_iff.mp hp, preamble?, if_pos (all_isBlank_iff.mpr hw)]
    | package hw hsep hname hw₁ hw₂ =>
      obtain ⟨name, rfl, hn⟩ := Option.map_eq_some_iff.mp hp
      rw [String.ofList_injective hn]
      exact preamble?_directive hw hsep hname hw₁ hw₂

/-! ### Braces and what follows them -/

/-- A body that the search for its closing brace answers is followed by that brace. -/
theorem eq_append_of_splitBrace? {depth : Nat} {s body rest : List Char}
    (h : splitBrace? depth s = some (body, rest)) : s = body ++ '\x7d' :: rest := by
  induction s generalizing depth body with
  | nil => cases h
  | cons c s ih =>
    simp only [splitBrace?] at h
    split at h
    · obtain ⟨⟨b, r⟩, hf, he⟩ := Option.map_eq_some_iff.mp h
      cases he
      rw [ih hf, List.cons_append]
    · split at h
      · next hc =>
        split at h
        · cases h
          rw [hc, List.nil_append]
        · obtain ⟨⟨b, r⟩, hf, he⟩ := Option.map_eq_some_iff.mp h
          cases he
          rw [ih hf, List.cons_append]
      · obtain ⟨⟨b, r⟩, hf, he⟩ := Option.map_eq_some_iff.mp h
        cases he
        rw [ih hf, List.cons_append]

/-- A body without braces ends at the first closing brace. -/
theorem splitBrace?_append {body : List Char} (hopen : '\x7b' ∉ body) (hclose : '\x7d' ∉ body)
    (rest : List Char) : splitBrace? 0 (body ++ '\x7d' :: rest) = some (body, rest) := by
  induction body with
  | nil => rfl
  | cons c body ih =>
    simp only [List.mem_cons, not_or] at hopen hclose
    rw [List.cons_append, splitBrace?, if_neg (Ne.symm hopen.1), if_neg (Ne.symm hclose.1),
      ih hopen.2 hclose.2]
    rfl

/-- The end is accepted exactly if it is a semicolon with blanks around it. -/
theorem checkEnd_eq_ok_iff {structName : String} {s : List Char} :
    checkEnd structName s = .ok () ↔
      ∃ w₁ w₂, Blanks w₁ ∧ Blanks w₂ ∧ s = w₁ ++ ';' :: w₂ := by
  unfold checkEnd
  constructor
  · intro h
    split at h
    · cases h
    · next rest hr =>
      split at h
      · next hall =>
        obtain ⟨w, hw, hs⟩ := exists_blanks_append_trimStart s
        exact ⟨w, rest, hw, all_isBlank_iff.mp hall, by rw [← skipChar?_eq_some_iff.mp hr, ← hs]⟩
      · cases h
  · rintro ⟨w₁, w₂, hw₁, hw₂, rfl⟩
    rw [trimStart_append_of_stops hw₁ (stops_cons.mpr (by decide)),
      skipChar?_eq_some_iff.mpr rfl]
    simp only [all_isBlank_iff.mpr hw₂, if_true]

/-! ### Outlines -/

/-- A text with an outline consists of its parts in order. -/
theorem exists_of_ofText_eq_ok {s : List Char} {outline : Outline} (h : ofText s = .ok outline) :
    ∃ before sep name w w₁ w₂, Preamble before outline.package ∧ Separator sep ∧
      isName name = true ∧ Blanks w ∧ Blanks w₁ ∧ Blanks w₂ ∧
      outline.structName = String.ofList name ∧
      s = before ++ ("struct".toList ++ (sep ++ (name ++ (w ++ '\x7b' :: (outline.body ++ '\x7d' ::
        (w₁ ++ ';' :: w₂)))))) := by
  simp only [ofText] at h
  split at h
  · cases h
  · next before name rest hh =>
    split at h
    · cases h
    · next package hp =>
      split at h
      · cases h
      · next body tail hb =>
        split at h
        · cases h
        · next he =>
          cases h
          obtain ⟨t, ht, rfl⟩ := exists_header_of_splitHeader? hh
          obtain ⟨sep, w, hsep, hname, hw, rfl⟩ := header?_eq_some_iff.mp ht
          obtain ⟨w₁, w₂, hw₁, hw₂, rfl⟩ := checkEnd_eq_ok_iff.mp he
          have hr := eq_append_of_splitBrace? hb
          exact ⟨before, sep, name, w, w₁, w₂, preamble?_eq_some_iff.mp hp, hsep, hname, hw, hw₁,
            hw₂, rfl, by rw [hr]⟩

/-- Parts in order have an outline if there are no braces in the body. -/
theorem ofText_eq_ok {before sep name w body w₁ w₂ : List Char} {package : Option String}
    (hpre : Preamble before package) (hsep : Separator sep) (hname : isName name = true)
    (hw : Blanks w) (hopen : '\x7b' ∉ body) (hclose : '\x7d' ∉ body) (hw₁ : Blanks w₁)
    (hw₂ : Blanks w₂) :
    ofText (before ++ ("struct".toList ++ (sep ++ (name ++ (w ++ '\x7b' :: (body ++ '\x7d' ::
      (w₁ ++ ';' :: w₂))))))) = .ok ⟨package, String.ofList name, body⟩ := by
  have hbrace := splitBrace?_append hopen hclose (w₁ ++ ';' :: w₂)
  generalize body ++ '\x7d' :: (w₁ ++ ';' :: w₂) = rest at hbrace ⊢
  have hheader : header? ("struct".toList ++ (sep ++ (name ++ (w ++ '\x7b' :: rest)))) =
      some (name, rest) := header?_eq_some_iff.mpr ⟨sep, w, hsep, hname, hw, rfl⟩
  have hend : checkEnd (String.ofList name) (w₁ ++ ';' :: w₂) = .ok () :=
    checkEnd_eq_ok_iff.mpr ⟨w₁, w₂, hw₁, hw₂, rfl⟩
  obtain ⟨found, hfound⟩ : ∃ found : Option (List Char), package = found.map String.ofList := by
    cases hpre with
    | blank _ => exact ⟨none, rfl⟩
    | package _ _ _ _ _ => exact ⟨some _, rfl⟩
  rw [hfound] at hpre ⊢
  simp only [ofText, splitHeader?_of_header hpre hheader, preamble?_eq_some_iff.mpr hpre, hbrace,
    hend]

end Outline

end WireSchema
