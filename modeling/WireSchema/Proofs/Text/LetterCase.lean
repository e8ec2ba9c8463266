import WireSchema.Proofs.Text.Scan
import WireSchema.Text.LetterCase

/-!
# The case of names

Names are made of ASCII characters, so the full case mappings answer one character for each of
theirs, which is a name character again. Whether a name character is a digit or the low line can be
seen in lower case.
-/

namespace WireSchema.Text

/-- What holds of every ASCII name character holds of every name character. -/
theorem forall_isNameChar {p : Char → Prop}
    (h : ∀ n < 0x80, isNameChar (Char.ofNat n) = true → p (Char.ofNat n)) {c : Char}
    (hc : isNameChar c = true) : p c := by
  have hp := h c.toNat (toNat_lt_of_isNameChar hc)
  rw [Char.ofNat_toNat] at hp
  exact hp hc

/-! ### Characters -/

/-- A name character stays one in lower case. -/
theorem isNameChar_toLower {c : Char} (h : isNameChar c = true) : isNameChar c.toLower = true :=
  forall_isNameChar (p := fun c ↦ isNameChar c.toLower = true) (by decide) h

/-- A name character stays one in upper case. -/
theorem isNameChar_toUpper {c : Char} (h : isNameChar c = true) : isNameChar c.toUpper = true :=
  forall_isNameChar (p := fun c ↦ isNameChar c.toUpper = true) (by decide) h

/-- A name may start in lower case with the characters it may start with. -/
theorem isNameStart_toLower {c : Char} (h : isNameStart c = true) : isNameStart c.toLower = true :=
  forall_isNameChar (p := fun c ↦ isNameStart c = true → isNameStart c.toLower = true) (by decide)
    (isNameChar_of_isNameStart h) h

/-- A name starts with any of its characters but the digits. -/
theorem isNameStart_eq_not_isDigit {c : Char} (h : isNameChar c = true) :
    isNameStart c = !c.isDigit :=
  forall_isNameChar (p := fun c ↦ isNameStart c = !c.isDigit) (by decide) h

/-- The digits of a name can be told in lower case. -/
theorem isDigit_toLower {c : Char} (h : isNameChar c = true) : c.toLower.isDigit = c.isDigit :=
  forall_isNameChar (p := fun c ↦ c.toLower.isDigit = c.isDigit) (by decide) h

/-- Upper case does not show in lower case. -/
theorem toLower_toUpper {c : Char} (h : isNameChar c = true) : c.toUpper.toLower = c.toLower :=
  forall_isNameChar (p := fun c ↦ c.toUpper.toLower = c.toLower) (by decide) h

/-- No small letter is in upper case. -/
theorem isLower_toUpper {c : Char} (h : isNameChar c = true) : c.toUpper.isLower = false :=
  forall_isNameChar (p := fun c ↦ c.toUpper.isLower = false) (by decide) h

/-- Lower case stays. -/
theorem toLower_toLower {c : Char} (h : isNameChar c = true) : c.toLower.toLower = c.toLower :=
  forall_isNameChar (p := fun c ↦ c.toLower.toLower = c.toLower) (by decide) h

/-- No capital letter is in lower case. -/
theorem isUpper_toLower {c : Char} (h : isNameChar c = true) : isUpper c.toLower = false :=
  forall_isNameChar (p := fun c ↦ isUpper c.toLower = false) (by decide) h

/-- Only capital letters change in lower case. -/
theorem toLower_of_not_isUpper {c : Char} (h : isNameChar c = true) (hu : isUpper c = false) :
    c.toLower = c :=
  forall_isNameChar (p := fun c ↦ isUpper c = false → c.toLower = c) (by decide) h hu

/-- The low line can be told in lower case. -/
theorem toLower_eq_lowLine_iff {c : Char} (h : isNameChar c = true) : c.toLower = '_' ↔ c = '_' :=
  forall_isNameChar (p := fun c ↦ c.toLower = '_' ↔ c = '_') (by decide) h

/-! ### The full mappings -/

/-- A name character is one character in lower case. -/
theorem lower_of_isNameChar {c : Char} (h : isNameChar c = true) : lower c = [c.toLower] :=
  if_pos (toNat_lt_of_isNameChar h)

/-- A name character is one character in upper case. -/
theorem upper_of_isNameChar {c : Char} (h : isNameChar c = true) : upper c = [c.toUpper] :=
  if_pos (toNat_lt_of_isNameChar h)

private theorem lowerAfter_of_isNameChar {s : List Char} (h : ∀ c ∈ s, isNameChar c = true)
    (before : List Char) : lowerAfter before s = s.map Char.toLower := by
  induction s generalizing before with
  | nil => rfl
  | cons c s ih =>
    obtain ⟨hc, hs⟩ := List.forall_mem_cons.mp h
    have hsigma : c ≠ '\u03a3' := by
      rintro rfl
      revert hc
      decide
    rw [lowerAfter, ih hs, List.map_cons, if_neg hsigma, lower_of_isNameChar hc,
      List.singleton_append]

/-- The characters of a name go to lower case one by one. -/
theorem lowerText_of_isNameChar {s : List Char} (h : ∀ c ∈ s, isNameChar c = true) :
    lowerText s = s.map Char.toLower :=
  lowerAfter_of_isNameChar h []

end WireSchema.Text
