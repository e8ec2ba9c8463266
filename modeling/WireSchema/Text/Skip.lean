import WireSchema.Text.Blank

/-!
# Skipping fixed pieces of a text

Each function answers what follows a piece that the text starts with, and nothing if the text does
not start with it: a given word, a given character, or a separator of at least one blank. The main
statements give the text back from the piece and the rest, so every piece uses up characters.
-/

namespace WireSchema.Text

/-- What follows the given characters, if the text starts with them. -/
def skipChars? : List Char → List Char → Option (List Char)
  | [], s => some s
  | _ :: _, [] => none
  | a :: w, c :: s => if a = c then skipChars? w s else none

/-- What follows the given word, if the text starts with it. -/
def skipWord? (word : String) (s : List Char) : Option (List Char) := skipChars? word.toList s

/-- What follows the given character, if the text starts with it. -/
def skipChar? (c : Char) : List Char → Option (List Char)
  | [] => none
  | a :: r => if a = c then some r else none

/-- What follows a separator: the text has to start with a blank, and loses all it starts with. -/
def skipBlanks? : List Char → Option (List Char)
  | [] => none
  | c :: r => if isBlank c then some (trimStart r) else none

/-- The characters and what follows them make up the text. -/
theorem skipChars?_append {w s r : List Char} (h : skipChars? w s = some r) : w ++ r = s := by
  induction w generalizing s with
  | nil => exact (Option.some.inj h).symm
  | cons a w ih =>
    cases s with
    | nil => cases h
    | cons c s =>
      simp only [skipChars?] at h
      split at h
      next hc => rw [List.cons_append, ih h, hc]
      next => cases h

/-- The characters are skipped wherever they come first. -/
theorem skipChars?_self_append (w r : List Char) : skipChars? w (w ++ r) = some r := by
  induction w with
  | nil => rfl
  | cons a w ih => simp [skipChars?, ih]

/-- The word and what follows it make up the text. -/
theorem skipWord?_append {word : String} {s r : List Char} (h : skipWord? word s = some r) :
    word.toList ++ r = s :=
  skipChars?_append h

/-- The character and what follows it make up the text. -/
theorem skipChar?_cons {c : Char} {s r : List Char} (h : skipChar? c s = some r) :
    c :: r = s := by
  cases s with
  | nil => cases h
  | cons a t =>
    simp only [skipChar?] at h
    split at h
    next ha =>
      cases h
      rw [ha]
    next => cases h

/-- A word uses up as many characters as it has. -/
theorem length_skipWord? {word : String} {s r : List Char} (h : skipWord? word s = some r) :
    s.length = word.toList.length + r.length := by
  rw [← skipWord?_append h, List.length_append]

/-- A character uses up one. -/
theorem length_skipChar? {c : Char} {s r : List Char} (h : skipChar? c s = some r) :
    s.length = r.length + 1 := by
  rw [← skipChar?_cons h, List.length_cons]

/-- A separator uses up at least one character. -/
theorem length_skipBlanks? {s r : List Char} (h : skipBlanks? s = some r) :
    r.length < s.length := by
  cases s with
  | nil => simp [skipBlanks?] at h
  | cons c t =>
    have := length_trimStart_le t
    simp only [skipBlanks?] at h
    split at h
    · cases h
      simp only [List.length_cons]
      omega
    · cases h

end WireSchema.Text
