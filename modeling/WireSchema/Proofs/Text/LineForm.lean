import WireSchema.Proofs.Text.Scan

/-!
# Line forms

A line form is a row of pieces: fixed words, and runs of characters of a class. `fill` writes a line
from the runs, and `runs?` reads the runs of a line, each of them as long as possible. The main
statements say that a written line is read back, and that a line that departs from a form in its
first characters is not of that form, however it goes on.
-/

namespace WireSchema.Text

/-- A piece of a line form: a fixed word, or a run of characters of a class. -/
inductive Piece
  | word (w : List Char)
  | run (p : Char → Bool)

namespace Piece

/-- Spaces. -/
def spaces (n : Nat) : Piece := word (List.replicate n ' ')

/-- A fixed text. Its characters come with an equation, so that reading a line does not decode the
text. -/
def text (s : String) {w : List Char} (_ : s = String.ofList w) : Piece := word w

/-- A run of name characters. -/
def name : Piece := run isNameChar

/-- A run of digits. -/
def digits : Piece := run Char.isDigit

end Piece

namespace LineForm

open Piece

/-- The line of a form with the given runs. -/
def fill : List Piece → List (List Char) → List Char
  | word w :: pieces, runs => w ++ fill pieces runs
  | run _ :: pieces, r :: runs => r ++ fill pieces runs
  | _, _ => []

/-- The runs of a line of the form; each of them takes all characters of its class. -/
def runs? : List Piece → List Char → Option (List (List Char))
  | [], s => if s.isEmpty then some [] else none
  | word w :: pieces, s => (skipChars? w s).bind (runs? pieces)
  | run p :: pieces, s => (runs? pieces (s.dropWhile p)).map (s.takeWhile p :: ·)

/-- There are as many runs as the form has, each of characters of its class. -/
def Fits : List Piece → List (List Char) → Prop
  | [], [] => True
  | word _ :: pieces, runs => Fits pieces runs
  | run p :: pieces, r :: runs => (∀ c ∈ r, p c = true) ∧ Fits pieces runs
  | _, _ => False

/-- Whether every run is at the end of the form, or before a word with a first character that is
not of the class of the run. -/
def isSeparated : List Piece → Bool
  | [] => true
  | word _ :: pieces => isSeparated pieces
  | [run _] => true
  | run p :: word (c :: w) :: pieces => !p c && isSeparated (word (c :: w) :: pieces)
  | run _ :: _ => false

/-- The words that the form starts with. -/
def lead : List Piece → List Char
  | word w :: pieces => w ++ lead pieces
  | _ => []

/-- Whether no line of the form starts with the given characters. -/
def departs : List Piece → List Char → Bool
  | [], s => !s.isEmpty
  | word w :: pieces, s =>
    match skipChars? w s with
    | some r => departs pieces r
    | none => (skipChars? s w).isNone
  | run p :: pieces, s => departs pieces (s.dropWhile p)

/-- Whether a character is in no line of the form. -/
def lacks (c : Char) (pieces : List Piece) : Bool :=
  pieces.all fun
    | word w => !w.contains c
    | run p => !p c

variable {pieces : List Piece} {runs : List (List Char)}

/-- After a run, the rest of a separated form is separated, and the run stops there. -/
theorem isSeparated_after_run {p : Char → Bool} (h : isSeparated (run p :: pieces) = true) :
    isSeparated pieces = true ∧ ∀ runs, Stops p (fill pieces runs) := by
  cases pieces with
  | nil => exact ⟨rfl, fun _ ↦ stops_nil p⟩
  | cons piece pieces =>
    cases piece with
    | word w =>
      cases w with
      | nil => cases h
      | cons c w =>
        simp only [isSeparated, Bool.and_eq_true, Bool.not_eq_true'] at h
        exact ⟨h.2, fun _ ↦ stops_cons.mpr h.1⟩
    | run q => cases h

/-- The runs of a written line are read back. -/
theorem runs?_fill (hs : isSeparated pieces = true) (h : Fits pieces runs) :
    runs? pieces (fill pieces runs) = some runs := by
  induction pieces generalizing runs with
  | nil =>
    cases runs with
    | nil => rfl
    | cons r runs => exact h.elim
  | cons piece pieces ih =>
    cases piece with
    | word w => rw [fill, runs?, skipChars?_self_append, Option.bind_some, ih hs h]
    | run p =>
      cases runs with
      | nil => exact h.elim
      | cons r runs =>
        obtain ⟨hrest, hstops⟩ := isSeparated_after_run hs
        rw [fill, runs?, takeWhile_append_of_stops h.1 (hstops runs),
          dropWhile_append_of_stops h.1 (hstops runs), ih hrest h.2, Option.map_some]

/-- A written line starts with the words that its form starts with. -/
theorem exists_fill_eq_lead_append (pieces : List Piece) (runs : List (List Char)) :
    ∃ r, fill pieces runs = lead pieces ++ r := by
  induction pieces with
  | nil => exact ⟨_, rfl⟩
  | cons piece pieces ih =>
    cases piece with
    | word w =>
      obtain ⟨r, hr⟩ := ih
      exact ⟨r, by rw [fill, lead, hr, List.append_assoc]⟩
    | run p => exact ⟨_, rfl⟩

/-- A character that the form lacks is in no line of it. -/
theorem not_mem_fill {c : Char} (hc : lacks c pieces = true) (h : Fits pieces runs) :
    c ∉ fill pieces runs := by
  induction pieces generalizing runs with
  | nil => cases runs <;> simp [fill]
  | cons piece pieces ih =>
    rw [lacks, List.all_cons, Bool.and_eq_true] at hc
    obtain ⟨hpiece, hrest⟩ := hc
    cases piece with
    | word w =>
      rw [fill, List.mem_append, not_or]
      exact ⟨by simpa using hpiece, ih hrest h⟩
    | run p =>
      cases runs with
      | nil => exact h.elim
      | cons r runs =>
        have hp : p c = false := by simpa using hpiece
        rw [fill, List.mem_append, not_or]
        refine ⟨fun hm ↦ ?_, ih hrest h.2⟩
        rw [h.1 c hm] at hp
        cases hp

/-- Nothing departs from a form before its first character. -/
theorem departs_nil (pieces : List Piece) : departs pieces [] = false := by
  induction pieces with
  | nil => rfl
  | cons piece pieces ih =>
    cases piece with
    | word w =>
      cases w with
      | nil => exact ih
      | cons a w => rfl
    | run p => exact ih

/-- A line that departs from a form is not of that form. -/
theorem runs?_of_departs {s : List Char} (h : departs pieces s = true) (r : List Char) :
    runs? pieces (s ++ r) = none := by
  induction pieces generalizing s with
  | nil =>
    cases s with
    | nil => cases h
    | cons c s => rfl
  | cons piece pieces ih =>
    cases piece with
    | word w =>
      rw [departs] at h
      rw [runs?]
      split at h
      · next rest hw =>
        rw [← skipChars?_append hw, List.append_assoc, skipChars?_self_append, Option.bind_some,
          ih h]
      · next hw =>
        -- Neither of the two is the start of the other, so they differ in a character of both.
        cases hs : skipChars? w (s ++ r) with
        | none => rfl
        | some t =>
          rcases List.append_eq_append_iff.mp (skipChars?_append hs) with ⟨u, rfl, _⟩ | ⟨u, rfl, _⟩
          · rw [skipChars?_self_append] at hw
            cases hw
          · rw [skipChars?_self_append] at h
            cases h
    | run p =>
      rw [departs] at h
      have hne : s.dropWhile p ≠ [] := by
        intro hnil
        rw [hnil, departs_nil] at h
        cases h
      have hdrop : (s ++ r).dropWhile p = s.dropWhile p ++ r := by
        rw [List.dropWhile_append, if_neg (by simpa using hne)]
      rw [runs?, hdrop, ih h, Option.map_none]

end LineForm

end WireSchema.Text
