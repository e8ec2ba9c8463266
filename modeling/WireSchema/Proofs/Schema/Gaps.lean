import Mathlib.Data.List.Infix
import WireSchema.Proofs.Text.Scan
import WireSchema.Schema.Canonical

/-!
# Gaps between words

Spacing and comments may stand between the words of a schema in any mix. Erasing the block comments
of a text can join what stands around them, and then the line comments of what is left are erased;
a gap has no marker that either pass would take for one of another comment. The main statement says
that of a gap only the spacing is left, whatever follows it.
-/

namespace WireSchema.Comment

open Text Canonical

/-- A text behind the marker of a line comment: no line ends in it, and no block comment starts in
it or with the marker. -/
structure IsLine (c : List Char) : Prop where
  within : ∀ x ∈ c, isWithinLine x = true
  noBlock : ¬['/', '*'] <:+: '/' :: '/' :: c

/-- A gap and the spacing in it. A line comment goes up to a line end, or up to the end of the text
in the last gap. -/
inductive Gap : (last : Bool) → List Char → List Char → Prop
  | nil {last : Bool} : Gap last [] []
  | spacing {last : Bool} {a : Char} {g w : List Char} (ha : isSpacing a = true)
      (h : Gap last g w) : Gap last (a :: g) (a :: w)
  | block {last : Bool} {c g w : List Char} (hc : ¬['*', '/'] <:+: c) (h : Gap last g w) :
      Gap last ('/' :: '*' :: (c ++ '*' :: '/' :: g)) w
  | line {last : Bool} {c : List Char} {a : Char} {g w : List Char} (hc : IsLine c)
      (ha : a = '\r' ∨ a = '\n') (h : Gap last g w) :
      Gap last ('/' :: '/' :: (c ++ a :: g)) (a :: w)
  | lastLine {c : List Char} (hc : IsLine c) : Gap true ('/' :: '/' :: c) []

/-! ### Block comments -/

/-- A marker of two characters that a text does not start with is not made up by its only character
and what follows it, unless that starts with the second one. -/
theorem not_prefix_append {a b c : Char} {r v : List Char} (h : ¬[a, b] <+: c :: r)
    (hv : Stops (· == b) v) : ¬[a, b] <+: c :: (r ++ v) := by
  intro hp
  obtain ⟨rfl, hsecond⟩ := List.cons_prefix_cons.mp hp
  cases r with
  | nil =>
    obtain ⟨t, rfl⟩ := hsecond
    simpa using stops_cons.mp hv
  | cons d r =>
    obtain ⟨rfl, _⟩ := List.cons_prefix_cons.mp hsecond
    exact h (List.prefix_append [a, b] r)

/-- A closed block comment goes. -/
theorem eraseBlocks_of_some {s r : List Char} (h : afterBlock? s = some r) :
    eraseBlocks s = eraseBlocks r := by
  cases s with
  | nil => cases h
  | cons c s =>
    rw [eraseBlocks]
    split
    · next he => rw [Option.some.inj (he.symm.trans h)]
    · next he => cases he.symm.trans h

/-- A character that starts no closed block comment stays. -/
theorem eraseBlocks_cons_of_none {c : Char} {r : List Char} (h : afterBlock? (c :: r) = none) :
    eraseBlocks (c :: r) = c :: eraseBlocks r := by
  rw [eraseBlocks]
  split
  · next he => cases he.symm.trans h
  · rfl

/-- A text that does not start with a block comment keeps its first character. -/
theorem eraseBlocks_cons {c : Char} {r : List Char} (h : ¬['/', '*'] <+: c :: r) :
    eraseBlocks (c :: r) = c :: eraseBlocks r := by
  apply eraseBlocks_cons_of_none
  rw [afterBlock?, Option.bind_eq_none_iff]
  intro t ht
  exact absurd ⟨t, (skipWord?_eq_some_iff.mp ht).symm⟩ h

/-- No block comment starts with a character that is no slash. -/
theorem eraseBlocks_cons_of_ne {c : Char} (hc : c ≠ '/') (r : List Char) :
    eraseBlocks (c :: r) = c :: eraseBlocks r := by
  apply eraseBlocks_cons
  intro hp
  exact hc (List.cons_prefix_cons.mp hp).1.symm

/-- A text without slashes has no block comments. -/
theorem eraseBlocks_append_of_not_mem {u : List Char} (hu : '/' ∉ u) (r : List Char) :
    eraseBlocks (u ++ r) = u ++ eraseBlocks r := by
  induction u with
  | nil => rfl
  | cons c u ih =>
    simp only [List.mem_cons, not_or] at hu
    rw [List.cons_append, eraseBlocks_cons_of_ne (Ne.symm hu.1), ih hu.2, List.cons_append]

/-- A text without the marker of block comments has none, unless its end and what follows it make
one up. -/
theorem eraseBlocks_append {u r : List Char} (hu : ¬['/', '*'] <:+: u) (hr : Stops (· == '*') r) :
    eraseBlocks (u ++ r) = u ++ eraseBlocks r := by
  induction u with
  | nil => rfl
  | cons c u ih =>
    rw [List.infix_cons_iff, not_or] at hu
    rw [List.cons_append, eraseBlocks_cons (not_prefix_append hu.1 hr), ih hu.2, List.cons_append]

/-- A text that does not start with a closing marker is closed behind its first character. -/
theorem afterClose?_cons {c : Char} {r : List Char} (h : ¬['*', '/'] <+: c :: r) :
    afterClose? (c :: r) = afterClose? r := by
  rw [afterClose?]
  cases hs : skipWord? "*/" (c :: r) with
  | none => rfl
  | some t => exact absurd ⟨t, (skipWord?_eq_some_iff.mp hs).symm⟩ h

/-- A text without closing markers is closed where what follows it is. -/
theorem afterClose?_append_of_no_close {c v : List Char} (hc : ¬['*', '/'] <:+: c)
    (hv : Stops (· == '/') v) : afterClose? (c ++ v) = afterClose? v := by
  induction c with
  | nil => rfl
  | cons a c ih =>
    rw [List.infix_cons_iff, not_or] at hc
    rw [List.cons_append, afterClose?_cons (not_prefix_append hc.1 hv), ih hc.2]

/-- The first closing marker is the one behind a text without closing markers. -/
theorem afterClose?_append {c : List Char} (hc : ¬['*', '/'] <:+: c) (r : List Char) :
    afterClose? (c ++ '*' :: '/' :: r) = some r :=
  afterClose?_append_of_no_close hc (stops_cons.mpr (by decide))

/-- A block comment goes as a whole. -/
theorem eraseBlocks_block {c : List Char} (hc : ¬['*', '/'] <:+: c) (r : List Char) :
    eraseBlocks ('/' :: '*' :: (c ++ '*' :: '/' :: r)) = eraseBlocks r :=
  eraseBlocks_of_some (afterClose?_append hc r)

/-! ### Line comments -/

/-- No line comment starts with a character that is no slash. -/
theorem eraseLines_cons_of_ne {c : Char} (hc : c ≠ '/') (r : List Char) :
    eraseLines (c :: r) = c :: eraseLines r := by
  have hnone : afterLine? (c :: r) = none := by
    cases hl : afterLine? (c :: r) with
    | none => rfl
    | some rest =>
      obtain ⟨t, ht, _⟩ := Option.map_eq_some_iff.mp hl
      exact absurd (List.cons.inj (skipWord?_eq_some_iff.mp ht)).1 hc
  rw [eraseLines]
  split
  · next he =>
    rw [hnone] at he
    cases he
  · rfl

/-- A text without slashes has no line comments. -/
theorem eraseLines_append_of_not_mem {u : List Char} (hu : '/' ∉ u) (r : List Char) :
    eraseLines (u ++ r) = u ++ eraseLines r := by
  induction u with
  | nil => rfl
  | cons c u ih =>
    simp only [List.mem_cons, not_or] at hu
    rw [List.cons_append, eraseLines_cons_of_ne (Ne.symm hu.1), ih hu.2, List.cons_append]

/-- A line comment goes up to the end of its line. -/
theorem eraseLines_line {c r : List Char} (hc : ∀ x ∈ c, isWithinLine x = true)
    (hr : Stops isWithinLine r) : eraseLines ('/' :: '/' :: (c ++ r)) = eraseLines r := by
  have hsome : afterLine? ('/' :: '/' :: (c ++ r)) = some r := by
    rw [afterLine?, show skipWord? "//" ('/' :: '/' :: (c ++ r)) = some (c ++ r) from rfl,
      Option.map_some, dropWhile_append_of_stops hc hr]
  rw [eraseLines]
  split
  · next he =>
    rw [hsome] at he
    cases he
    rfl
  · next he =>
    rw [hsome] at he
    cases he

/-! ### Gaps -/

private theorem isSpacing_lineEnd {a : Char} (ha : a = '\r' ∨ a = '\n') : isSpacing a = true := by
  rcases ha with rfl | rfl <;> decide

private theorem ne_slash_of_isSpacing {a : Char} (ha : isSpacing a = true) : a ≠ '/' := by
  rintro rfl
  revert ha
  decide

/-- What is left of a gap is spacing. -/
theorem Gap.isSpacing_of_mem {last : Bool} {g w : List Char} (h : Gap last g w) :
    ∀ a ∈ w, isSpacing a = true := by
  induction h with
  | nil => simp
  | spacing ha _ ih => exact List.forall_mem_cons.mpr ⟨ha, ih⟩
  | block _ _ ih => exact ih
  | line _ ha _ ih => exact List.forall_mem_cons.mpr ⟨isSpacing_lineEnd ha, ih⟩
  | lastLine _ => simp

/-- Of a gap the block comments go first, and then the line comments of what they leave. -/
theorem Gap.exists_eraseBlocks {last : Bool} {g w : List Char} (h : Gap last g w) :
    ∃ u, ∀ r, (last = true → r = []) →
      eraseBlocks (g ++ r) = u ++ eraseBlocks r ∧ eraseLines (u ++ r) = w ++ eraseLines r := by
  induction h with
  | nil => exact ⟨[], fun r _ ↦ ⟨rfl, rfl⟩⟩
  | @spacing last a g w ha _ ih =>
    obtain ⟨u, hu⟩ := ih
    have hslash := ne_slash_of_isSpacing ha
    refine ⟨a :: u, fun r hr ↦ ?_⟩
    obtain ⟨hb, hl⟩ := hu r hr
    simp only [List.cons_append, eraseBlocks_cons_of_ne hslash, eraseLines_cons_of_ne hslash, hb,
      hl, and_self]
  | @block last c g w hc _ ih =>
    obtain ⟨u, hu⟩ := ih
    refine ⟨u, fun r hr ↦ ⟨?_, (hu r hr).2⟩⟩
    simp only [List.cons_append, List.append_assoc, eraseBlocks_block hc, (hu r hr).1]
  | @line last c a g w hc ha _ ih =>
    obtain ⟨u, hu⟩ := ih
    have hslash := ne_slash_of_isSpacing (isSpacing_lineEnd ha)
    have hstar (r : List Char) : Stops (· == '*') (a :: r) := by
      rcases ha with rfl | rfl <;> exact stops_cons.mpr (by decide)
    have hend (r : List Char) : Stops isWithinLine (a :: r) := by
      rcases ha with rfl | rfl <;> exact stops_cons.mpr (by decide)
    refine ⟨'/' :: '/' :: (c ++ a :: u), fun r hr ↦ ?_⟩
    obtain ⟨hb, hl⟩ := hu r hr
    have hblocks := eraseBlocks_append hc.noBlock (hstar (g ++ r))
    rw [eraseBlocks_cons_of_ne hslash, hb] at hblocks
    have hlines := eraseLines_line hc.within (hend (u ++ r))
    rw [eraseLines_cons_of_ne hslash, hl] at hlines
    simp only [List.cons_append, List.append_assoc] at hblocks ⊢
    exact ⟨hblocks, hlines⟩
  | @lastLine c hc =>
    refine ⟨'/' :: '/' :: c, fun r hr ↦ ?_⟩
    rw [hr rfl]
    have hlines := eraseLines_line hc.within (stops_nil _)
    simp only [List.append_nil] at hlines ⊢
    have hblocks := eraseBlocks_append hc.noBlock (stops_nil _)
    exact ⟨by rwa [List.append_nil] at hblocks, hlines⟩

/-- Of a gap only its spacing is left. -/
theorem erase_gap_append {last : Bool} {g w : List Char} (h : Gap last g w) (r : List Char)
    (hr : last = true → r = []) : erase (g ++ r) = w ++ erase r := by
  obtain ⟨u, hu⟩ := h.exists_eraseBlocks
  have hr' : last = true → eraseBlocks r = [] := by
    intro hl
    rw [hr hl, eraseBlocks]
  rw [erase, (hu r hr).1, (hu _ hr').2, erase]

/-- Of the last gap only its spacing is left. -/
theorem erase_gap {g w : List Char} (h : Gap true g w) : erase g = w := by
  have he := erase_gap_append h [] fun _ ↦ rfl
  simpa [erase, eraseBlocks, eraseLines] using he

/-- A text without slashes has no comments. -/
theorem erase_append_of_not_mem {u : List Char} (hu : '/' ∉ u) (r : List Char) :
    erase (u ++ r) = u ++ erase r := by
  rw [erase, eraseBlocks_append_of_not_mem hu, eraseLines_append_of_not_mem hu, erase]

/-- A text without slashes stays. -/
theorem erase_of_not_mem {s : List Char} (hs : '/' ∉ s) : erase s = s := by
  simpa [erase, eraseBlocks, eraseLines] using erase_append_of_not_mem hs []

end WireSchema.Comment
