import WireSchema.Proofs.Schema.Acceptance
import WireSchema.Proofs.Schema.CanonicalForm
import WireSchema.Proofs.Schema.Directives
import WireSchema.Proofs.Schema.Gaps

/-!
# Canonical forms stay as they are

Leaving out comments, directives or spacing can put new ones together: a slash comes next to a
slash, or a keyword next to a blank. In a schema this does not happen, since it has no slash outside
of its comments, and a name in it is never followed by another name, whichever of its blanks are
left out. The main statement says that the canonical form of an accepted text has nothing that is
left out, so that it is its own canonical form.
-/

namespace WireSchema

open Text Grammar

/-! ### Directives in a text -/

namespace Package

/-- A whole directive: its keyword, a separator, a dotted name, blanks and a semicolon. -/
def IsDirective (u : List Char) : Prop :=
  ∃ sep name w, Separator sep ∧ isDotted name = true ∧ Blanks w ∧
    u = "package".toList ++ (sep ++ (name ++ (w ++ [';'])))

/-- A directive is not empty. -/
theorem IsDirective.ne_nil {u : List Char} (h : IsDirective u) : u ≠ [] := by
  obtain ⟨sep, name, w, _, _, _, rfl⟩ := h
  simp

/-- A directive is read exactly if the text starts with one. -/
theorem directive?_eq_none_iff {s : List Char} :
    directive? s = none ↔ ∀ u, IsDirective u → ¬u <+: s := by
  constructor
  · rintro h _ ⟨sep, name, w, hsep, hname, hw, rfl⟩ ⟨rest, hs⟩
    have hread : directive? s = some (name, rest) :=
      directive?_eq_some_iff.mpr ⟨sep, w, hsep, hname, hw, by simp [← hs]⟩
    rw [h] at hread
    cases hread
  · intro h
    cases hread : directive? s with
    | none => rfl
    | some found =>
      obtain ⟨sep, w, hsep, hname, hw, rfl⟩ := directive?_eq_some_iff.mp hread
      refine absurd ⟨found.2, ?_⟩ (h _ ⟨sep, found.1, w, hsep, hname, hw, rfl⟩)
      simp

/-- No directive starts in a text exactly if none is a part of it. -/
theorem noneStarts_nil_iff {s : List Char} :
    NoneStarts s [] ↔ ∀ u, IsDirective u → ¬u <:+: s := by
  constructor
  · rintro h u hu ⟨front, back, hs⟩
    have hsuffix : u ++ back <:+ s := ⟨front, by rw [← hs, List.append_assoc]⟩
    have hnone := h (u ++ back) (by simp [hu.ne_nil]) hsuffix
    rw [List.append_nil] at hnone
    exact directive?_eq_none_iff.mp hnone u hu (List.prefix_append u back)
  · intro h v _ hsuffix
    rw [List.append_nil, directive?_eq_none_iff]
    exact fun u hu hstart ↦ h u hu (hstart.isInfix.trans hsuffix.isInfix)

end Package

namespace Canonical

/-- A text that has nothing of what the canonical form leaves out: no slash, so that it has no
comment, no spacing, and no directive, not even within a longer word. -/
structure IsBare (s : List Char) : Prop where
  noSlash : '/' ∉ s
  noSpacing : ∀ c ∈ s, isSpacing c = false
  noDirective : ∀ u, Package.IsDirective u → ¬u <:+: s

/-- A bare text is its own canonical form. -/
theorem form_of_isBare {s : List Char} (h : IsBare s) : form s = s := by
  have hdirectives := Package.eraseDirectives_append (Package.noneStarts_nil_iff.mpr h.noDirective)
    false
  rw [List.append_nil, Package.eraseDirectives, List.append_nil] at hdirectives
  rw [form, Comment.erase_of_not_mem h.noSlash, hdirectives, eraseSpacing, List.filter_eq_self]
  intro c hc
  rw [h.noSpacing c hc]
  rfl

/-- No directive starts in the canonical form of a schema. -/
theorem noneStarts_form {s : List Char} {structName : String} {package : Option String}
    {fields : List Field} (h : Schema (Comment.erase s) structName package fields) :
    Package.NoneStarts (form s) [] := by
  generalize hs : Comment.erase s = t at h
  cases h with
  | intro hpre hsep hname hw hbody hw₁ hw₂ =>
    obtain ⟨w₀, hw₀, he⟩ := Package.eraseDirectives_schema hpre hsep hname hw hbody hw₁ hw₂
    have hkeep : ∀ c, isBlank c = false → (!isSpacing c) = true := by
      intro c hc
      rw [Bool.not_eq_true', ← Bool.not_eq_true]
      intro hspacing
      rw [isBlank_of_isSpacing hspacing] at hc
      cases hc
    have hblanks : 'p' ∉ eraseSpacing w₀ := fun hm ↦
      hw₀.not_mem (by decide) (List.mem_filter.mp hm).1
    have hstruct := Package.noneStarts_struct hkeep hsep hname hw hbody hw₁ hw₂
    rw [form, hs, he, eraseSpacing, List.filter_append]
    exact (Package.noneStarts_of_not_mem hblanks _).append hstruct

/-- The canonical form of a schema is bare. -/
theorem isBare_form {s : List Char} {structName : String} {package : Option String}
    {fields : List Field} (h : Schema (Comment.erase s) structName package fields) :
    IsBare (form s) where
  noSlash hm := h.not_mem (c := '/') (by decide)
    (Package.mem_of_mem_eraseDirectives (List.mem_filter.mp hm).1)
  noSpacing _ hm := isSpacing_of_mem_form hm
  noDirective := Package.noneStarts_nil_iff.mp (noneStarts_form h)

/-- The canonical text of an accepted text is bare, and its own canonical form. -/
theorem canonicalText_fixed_of_parse {source : String} {m : Message}
    (h : Message.parse source = .ok m) :
    IsBare m.canonicalText.toList ∧
      String.ofList (form m.canonicalText.toList) = m.canonicalText := by
  obtain ⟨hread, _, htext, _⟩ := Message.parseChars_eq_ok_iff.mp h
  have hbare : IsBare m.canonicalText.toList := by
    rw [htext, String.toList_ofList]
    exact isBare_form (Message.readsTo_iff.mp hread)
  refine ⟨hbare, ?_⟩
  rw [form_of_isBare hbare, String.ofList_toList]

/-- Names that are keywords, with other blanks than spacing around them. -/
theorem canonicalText_fixed_of_keywords :
    ∃ m, Message.parse
        "package p;struct\x0bpackage\x7bbool\x0bpackage ;bool\u00a0struct\x0c;\x7d;" = .ok m ∧
      m.canonicalText = "struct\x0bpackage\x7bbool\x0bpackage;bool\u00a0struct\x0c;\x7d;" ∧
      IsBare m.canonicalText.toList ∧
      String.ofList (form m.canonicalText.toList) = m.canonicalText := by
  let text := "struct\x0bpackage\x7bbool\x0bpackage;bool\u00a0struct\x0c;\x7d;"
  let m : Message := ⟨"package", some "p", [⟨.bool, "package", none⟩, ⟨.bool, "struct", none⟩],
    text, Fingerprint.ofText text⟩
  have h : Message.parse
      "package p;struct\x0bpackage\x7bbool\x0bpackage ;bool\u00a0struct\x0c;\x7d;" = .ok m := by
    decide +kernel
  exact ⟨m, h, rfl, canonicalText_fixed_of_parse h⟩

end Canonical

end WireSchema
