import WireSchema.Text.CaseTable

/-!
# Letter case

Upper and lower case of characters and texts by the full Unicode mappings, which may answer
several characters. ASCII is decided by core's own functions, all above by `CaseTable`. The case
of a text is the case of its characters one by one, except that a capital sigma at the end of a
word becomes a final small sigma (`lowerText`).
-/

namespace WireSchema.Text

open CaseTable

/-- Membership in a list of runs `(first, last, step)`. -/
def inRuns (runs : List (Nat × Nat × Nat)) (n : Nat) : Bool :=
  runs.any fun (first, last, step) ↦ first ≤ n && n ≤ last && (n - first) % step == 0

/-- Membership in a list of ranges with both ends included. -/
def inRanges (ranges : List (Nat × Nat)) (n : Nat) : Bool :=
  ranges.any fun (first, last) ↦ first ≤ n && n ≤ last

/-- The image of a code point under a list of shifted runs; no run holds a fixed point. -/
def shifted (runs : List (Nat × Nat × Nat × Int)) (n : Nat) : Nat :=
  match runs.find? fun (first, last, step, _) ↦
      first ≤ n && n ≤ last && (n - first) % step == 0 with
  | some (_, _, _, distance) => (n + distance : Int).toNat
  | none => n

/-- The property Uppercase. -/
def isUpper (c : Char) : Bool :=
  if c.toNat < 0x80 then c.isUpper else inRuns upperRuns c.toNat

/-- The property Lowercase. -/
def isLower (c : Char) : Bool :=
  if c.toNat < 0x80 then c.isLower else inRuns lowerRuns c.toNat

/-- The full upper-case form of a character. -/
def upper (c : Char) : List Char :=
  if c.toNat < 0x80 then [c.toUpper]
  else (upperExpansions.lookup c.toNat).getD [Char.ofNat (shifted upperShifts c.toNat)]

/-- The full lower-case form of a character. -/
def lower (c : Char) : List Char :=
  if c.toNat < 0x80 then [c.toLower]
  else (lowerExpansions.lookup c.toNat).getD [Char.ofNat (shifted lowerShifts c.toNat)]

/-- A letter that has a case. -/
def isCased (c : Char) : Bool :=
  if c.toNat < 0x80 then c.isAlpha else inRanges casedRanges c.toNat

/-- A character that does not count where the end of a word is looked for. -/
def isCaseIgnorable (c : Char) : Bool :=
  if c.toNat < 0x80 then c == '.' || c == ':' || c == '^' || c.toNat == 0x60 || c.toNat == 0x27
  else inRanges ignorableRanges c.toNat

/-- Whether a cased letter comes first once the ignorable characters are skipped. -/
def startsCased (s : List Char) : Bool :=
  match s.dropWhile isCaseIgnorable with
  | [] => false
  | c :: _ => isCased c

/-- The upper-case form of a text. -/
def upperText (s : List Char) : List Char := s.flatMap upper

/-- The lower-case form of a text that continues the characters `before`, nearest first. A capital
sigma that ends a word, with a cased letter before it and none after it, becomes a final sigma. -/
def lowerAfter (before : List Char) : List Char → List Char
  | [] => []
  | c :: r =>
    let image :=
      if c = '\u03a3' then
        if startsCased before && !startsCased r then ['\u03c2'] else ['\u03c3']
      else lower c
    image ++ lowerAfter (c :: before) r

/-- The lower-case form of a text. -/
def lowerText (s : List Char) : List Char := lowerAfter [] s

end WireSchema.Text
