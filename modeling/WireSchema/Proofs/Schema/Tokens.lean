import WireSchema.Proofs.Schema.CanonicalForm
import WireSchema.Proofs.Schema.Gaps

/-!
# Tokens of schemas

A schema is a row of tokens, and a text writes it by putting gaps around them. Erasing the comments
of such a text turns every gap into spacing and keeps the tokens, and leaving out the blanks keeps
only the tokens.
-/

namespace WireSchema

open Text Canonical Comment

/-- Characters that stand together in a schema, without blanks and without comment markers. -/
structure Token where
  text : List Char
  /-- Whether some spacing has to follow the token. -/
  spaced : Bool
  isSolid : ∀ c ∈ text, isBlank c = false ∧ c ≠ '/'

namespace Token

/-- A word of name characters and dots. -/
def word (s : List Char) (h : s.all isDottedChar = true) (spaced : Bool) : Token where
  text := s
  spaced := spaced
  isSolid c hc := by
    have hd := List.all_eq_true.mp h c hc
    constructor
    · cases hb : isBlank c with
      | false => rfl
      | true =>
        rw [isDottedChar_of_isBlank hb] at hd
        cases hd
    · rintro rfl
      revert hd
      decide

/-- A name. -/
def name (s : List Char) (h : isName s = true) (spaced : Bool) : Token :=
  word s (List.all_eq_true.mpr (isDottedChar_of_mem_name h)) spaced

/-- A dotted name. -/
def dotted (s : List Char) (h : isDotted s = true) : Token :=
  word s (List.all_eq_true.mpr (isDottedChar_of_mem_dotted h)) false

/-- A punctuation mark. -/
def mark (c : Char) (h : isBlank c = false ∧ c ≠ '/') : Token where
  text := [c]
  spaced := false
  isSolid := by simpa using h

@[simp] theorem text_word (s : List Char) (h : s.all isDottedChar = true) (spaced : Bool) :
    (word s h spaced).text = s := rfl

@[simp] theorem text_name (s : List Char) (h : isName s = true) (spaced : Bool) :
    (name s h spaced).text = s := rfl

@[simp] theorem text_dotted (s : List Char) (h : isDotted s = true) : (dotted s h).text = s := rfl

@[simp] theorem text_mark (c : Char) (h : isBlank c = false ∧ c ≠ '/') :
    (mark c h).text = [c] := rfl

end Token

/-- A text of the tokens in order, with a gap before each of them and a last one. The gap behind a
token that has to be followed by spacing is not without it. -/
inductive Written : (spaced : Bool) → List Token → List Char → Prop
  | nil {spaced : Bool} {g w : List Char} (hg : Gap true g w) (hw : spaced = true → w ≠ []) :
      Written spaced [] g
  | cons {spaced : Bool} {g w : List Char} {t : Token} {ts : List Token} {s : List Char}
      (hg : Gap false g w) (hw : spaced = true → w ≠ []) (hs : Written t.spaced ts s) :
      Written spaced (t :: ts) (g ++ (t.text ++ s))

/-! ### Texts without comments -/

namespace Comment

/-- The spacing of a gap is a run of blanks. -/
theorem Gap.blanks {last : Bool} {g w : List Char} (h : Gap last g w) : Blanks w :=
  fun c hc ↦ isBlank_of_isSpacing (h.isSpacing_of_mem c hc)

/-- Of a gap before a token its spacing is left, and the token stays. -/
theorem erase_gap_token {g w : List Char} (h : Gap false g w) (t : Token) (s : List Char) :
    erase (g ++ (t.text ++ s)) = w ++ (t.text ++ erase s) := by
  have hslash : '/' ∉ t.text := fun hm ↦ (t.isSolid _ hm).2 rfl
  rw [erase_gap_append h _ (by simp), erase_append_of_not_mem hslash]

end Comment

namespace Written

variable {spaced : Bool} {t : Token} {ts : List Token} {s : List Char}

/-- Behind the last token blanks are left. -/
theorem blanks_erase (h : Written spaced [] s) : Blanks (erase s) := by
  cases h with
  | nil hg _ =>
    rw [erase_gap hg]
    exact hg.blanks

/-- Before a token blanks are left, and behind it what is left of the other tokens. -/
theorem exists_erase_eq (h : Written spaced (t :: ts) s) :
    ∃ w s', Blanks w ∧ (spaced = true → w ≠ []) ∧ Written t.spaced ts s' ∧
      erase s = w ++ (t.text ++ erase s') := by
  cases h with
  | cons hg hw hs => exact ⟨_, _, hg.blanks, hw, hs, erase_gap_token hg t _⟩

/-- Tokens with gaps around them have no other blanks than spacing. -/
theorem isPlain (h : Written spaced ts s) : IsPlain s := by
  unfold IsPlain
  induction h with
  | nil hg _ =>
    rw [erase_gap hg]
    exact fun c hc _ ↦ hg.isSpacing_of_mem c hc
  | @cons _ g w t ts s hg _ _ ih =>
    rw [erase_gap_token hg]
    simp only [List.forall_mem_append]
    refine ⟨fun c hc _ ↦ hg.isSpacing_of_mem c hc, fun c hc hb ↦ ?_, ih⟩
    rw [(t.isSolid c hc).1] at hb
    cases hb

/-- Without the blanks the tokens are left. -/
theorem eraseBlanks_erase (h : Written spaced ts s) :
    eraseBlanks (erase s) = ts.flatMap Token.text := by
  induction h with
  | nil hg _ => rw [erase_gap hg, eraseBlanks_of_blanks hg.blanks, List.flatMap_nil]
  | @cons _ g w t ts s hg _ _ ih =>
    have ht : eraseBlanks t.text = t.text := eraseBlanks_of_forall fun c hc ↦ (t.isSolid c hc).1
    rw [erase_gap_token hg, eraseBlanks_append, eraseBlanks_append, eraseBlanks_of_blanks hg.blanks,
      ht, ih, List.nil_append, List.flatMap_cons]

end Written

end WireSchema
