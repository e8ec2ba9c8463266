import WireSchema.Text.Skip

/-!
# Comments

A schema has no string literals, so a comment marker always starts a comment. `erase` removes block
comments first, each from its marker up to the nearest closing marker, and then line comments, each
up to the end of its line. A block comment that is never closed stays in the text. The line ends
themselves are kept, and nothing takes the place of a comment.
-/

namespace WireSchema.Comment

open Text

/-- What follows the first closing marker of a block comment. -/
def afterClose? : List Char → Option (List Char)
  | [] => none
  | c :: r =>
    match skipWord? "*/" (c :: r) with
    | some rest => some rest
    | none => afterClose? r

/-- What follows the block comment that the text starts with, if it starts with a closed one. -/
def afterBlock? (s : List Char) : Option (List Char) :=
  (skipWord? "/*" s).bind afterClose?

/-- What follows a closing marker is shorter than what came before it. -/
theorem length_afterClose? {s r : List Char} (h : afterClose? s = some r) :
    r.length < s.length := by
  induction s with
  | nil => cases h
  | cons c s ih =>
    simp only [afterClose?] at h
    split at h
    next rest hw =>
      cases h
      rw [length_skipWord? hw]
      exact Nat.lt_add_of_pos_left (by decide)
    next => exact Nat.lt_succ_of_lt (ih h)

/-- A block comment uses up its markers. -/
theorem length_afterBlock? {s r : List Char} (h : afterBlock? s = some r) :
    r.length < s.length := by
  obtain ⟨t, ht, hr⟩ := Option.bind_eq_some_iff.mp h
  have h₁ := length_skipWord? ht
  have h₂ := length_afterClose? hr
  omega

/-- The text without its closed block comments. -/
def eraseBlocks : List Char → List Char
  | [] => []
  | c :: r =>
    match _h : afterBlock? (c :: r) with
    | some rest => eraseBlocks rest
    | none => c :: eraseBlocks r
termination_by s => s.length
decreasing_by
  · exact length_afterBlock? _h
  · simp

/-- Whether a line comment goes on with this character. -/
def isWithinLine (c : Char) : Bool := c != '\n' && c != '\r'

/-- What follows the line comment that the text starts with, if it starts with one. -/
def afterLine? (s : List Char) : Option (List Char) :=
  (skipWord? "//" s).map fun r ↦ r.dropWhile isWithinLine

/-- A line comment uses up its marker. -/
theorem length_afterLine? {s r : List Char} (h : afterLine? s = some r) :
    r.length < s.length := by
  obtain ⟨t, ht, rfl⟩ := Option.map_eq_some_iff.mp h
  have h₁ := (List.dropWhile_suffix isWithinLine (l := t)).length_le
  rw [length_skipWord? ht]
  exact Nat.lt_of_le_of_lt h₁ (Nat.lt_add_of_pos_left (by decide))

/-- The text without its line comments. -/
def eraseLines : List Char → List Char
  | [] => []
  | c :: r =>
    match _h : afterLine? (c :: r) with
    | some rest => eraseLines rest
    | none => c :: eraseLines r
termination_by s => s.length
decreasing_by
  · exact length_afterLine? _h
  · simp

/-- The text without comments: block comments go first, so they hide line markers within them. -/
def erase (s : List Char) : List Char := eraseLines (eraseBlocks s)

end WireSchema.Comment
