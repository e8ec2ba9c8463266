import WireSchema.Text.Name
import WireSchema.Text.Numeral
import WireSchema.Text.Skip
import WireSchema.Text.WordChar

/-!
# Scanning joined texts

What the scanners do to a text that is put together from pieces. A scanner that takes all
characters of a class stops exactly after the piece if the rest does not go on with a character of
that class (`Stops`). Blanks stand in runs that may be empty (`Blanks`) or not (`Separator`), and
no blank belongs to a name or to a word.
-/

namespace WireSchema.Text

/-- The text is empty or starts with a character outside of the class. -/
def Stops (p : Char → Bool) (s : List Char) : Prop := ∀ c ∈ s.head?, p c = false

/-- A run of blanks, which may be empty. -/
def Blanks (s : List Char) : Prop := ∀ c ∈ s, isBlank c = true

/-- A run of at least one blank. -/
def Separator (s : List Char) : Prop := s ≠ [] ∧ Blanks s

/-- Whether a word character stands right before what follows the text. -/
def endsInWord (inWord : Bool) (s : List Char) : Bool := s.foldl (fun _ c ↦ isWordChar c) inWord

/-! ### Classes of characters -/

private theorem toNat_of_isBlank {c : Char} (h : isBlank c = true) :
    c.toNat ∈ [0x09, 0x0a, 0x0b, 0x0c, 0x0d, 0x20, 0x85, 0xa0, 0x1680, 0x2000, 0x2001, 0x2002,
      0x2003, 0x2004, 0x2005, 0x2006, 0x2007, 0x2008, 0x2009, 0x200a, 0x2028, 0x2029, 0x202f,
      0x205f, 0x3000] := by
  simp only [isBlank, Bool.or_eq_true, Bool.and_eq_true, decide_eq_true_eq, beq_iff_eq] at h
  simp only [List.mem_cons, List.not_mem_nil, or_false]
  omega

/-- A blank is no word character. -/
theorem isWordChar_of_isBlank {c : Char} (h : isBlank c = true) : isWordChar c = false := by
  have hall : ∀ n ∈ [0x09, 0x0a, 0x0b, 0x0c, 0x0d, 0x20, 0x85, 0xa0, 0x1680, 0x2000, 0x2001,
      0x2002, 0x2003, 0x2004, 0x2005, 0x2006, 0x2007, 0x2008, 0x2009, 0x200a, 0x2028, 0x2029,
      0x202f, 0x205f, 0x3000], isWordChar (Char.ofNat n) = false := by decide +kernel
  have hc := hall _ (toNat_of_isBlank h)
  rwa [Char.ofNat_toNat] at hc

/-- A name character is an ASCII character. -/
theorem toNat_lt_of_isNameChar {c : Char} (h : isNameChar c = true) : c.toNat < 0x80 := by
  simp only [isNameChar, Bool.or_eq_true, beq_iff_eq] at h
  rcases h with h | rfl
  · have hc : (c.isUpper || c.isLower || c.isDigit) = true := h
    simp only [Bool.or_eq_true] at hc
    -- The last letters and the last digit are ASCII characters.
    rcases hc with (hu | hl) | hd
    · have hle : c.toNat ≤ 90 := UInt32.le_iff_toNat_le.mp (of_decide_eq_true hu).2
      omega
    · have hle : c.toNat ≤ 122 :=
        UInt32.le_iff_toNat_le.mp (of_decide_eq_true (Bool.and_eq_true_iff.mp hl).2)
      omega
    · have hle : c.toNat ≤ 57 :=
        UInt32.le_iff_toNat_le.mp (of_decide_eq_true (Bool.and_eq_true_iff.mp hd).2)
      omega
  · decide

/-- A name character is a word character. -/
theorem isWordChar_of_isNameChar {c : Char} (h : isNameChar c = true) : isWordChar c = true := by
  rwa [isWordChar_of_ascii (toNat_lt_of_isNameChar h)]

/-- A blank is no name character. -/
theorem isNameChar_of_isBlank {c : Char} (h : isBlank c = true) : isNameChar c = false := by
  cases hc : isNameChar c with
  | false => rfl
  | true =>
    have hw := isWordChar_of_isNameChar hc
    rw [isWordChar_of_isBlank h] at hw
    cases hw

/-- A name may go on with the characters it may start with. -/
theorem isNameChar_of_isNameStart {c : Char} (h : isNameStart c = true) : isNameChar c = true := by
  simp only [isNameStart, Bool.or_eq_true] at h
  rcases h with h | h <;> simp [isNameChar, Char.isAlphanum, h]

/-- A name may go on with digits. -/
theorem isNameChar_of_isDigit {c : Char} (h : c.isDigit = true) : isNameChar c = true := by
  simp [isNameChar, Char.isAlphanum, h]

/-- The characters of names are those of dotted names. -/
theorem isDottedChar_of_isNameChar {c : Char} (h : isNameChar c = true) :
    isDottedChar c = true := by
  simp [isDottedChar, h]

/-- A name character is no blank. -/
theorem isBlank_of_isNameChar {c : Char} (h : isNameChar c = true) : isBlank c = false := by
  cases hc : isBlank c with
  | false => rfl
  | true =>
    rw [isNameChar_of_isBlank hc] at h
    cases h

/-- A blank is no character of a dotted name. -/
theorem isDottedChar_of_isBlank {c : Char} (h : isBlank c = true) : isDottedChar c = false := by
  have hd : c ≠ '.' := by
    rintro rfl
    revert h
    decide
  simp [isDottedChar, isNameChar_of_isBlank h, hd]

/-! ### Where a class stops -/

/-- Nothing follows the end of a text. -/
@[simp] theorem stops_nil (p : Char → Bool) : Stops p [] := by
  simp [Stops]

/-- The first character decides. -/
@[simp] theorem stops_cons {p : Char → Bool} {c : Char} {s : List Char} :
    Stops p (c :: s) ↔ p c = false := by
  simp [Stops]

/-- A piece without characters of the class may stand before the place where it stops. -/
theorem Stops.append {p : Char → Bool} {u s : List Char} (hs : Stops p s)
    (hu : ∀ c ∈ u, p c = false) : Stops p (u ++ s) := by
  cases u with
  | nil => exact hs
  | cons c u => exact stops_cons.mpr (hu c List.mem_cons_self)

/-- The characters of a class up to the place where it stops are taken. -/
theorem takeWhile_append_of_stops {p : Char → Bool} {u s : List Char} (hu : ∀ c ∈ u, p c = true)
    (hs : Stops p s) : (u ++ s).takeWhile p = u := by
  rw [List.takeWhile_append_of_pos hu]
  cases s with
  | nil => simp
  | cons c s => simp [stops_cons.mp hs]

/-- The characters of a class up to the place where it stops are dropped. -/
theorem dropWhile_append_of_stops {p : Char → Bool} {u s : List Char} (hu : ∀ c ∈ u, p c = true)
    (hs : Stops p s) : (u ++ s).dropWhile p = s := by
  rw [List.dropWhile_append_of_pos hu]
  cases s with
  | nil => rfl
  | cons c s => simp [stops_cons.mp hs]

/-- A class stops after all its characters are dropped. -/
theorem stops_dropWhile (p : Char → Bool) (s : List Char) : Stops p (s.dropWhile p) := by
  induction s with
  | nil => simp
  | cons c s ih =>
    by_cases hc : p c = true
    · simpa [hc] using ih
    · simp [hc]

/-- Of two characters that are not in what stands before them, one text has only one first. -/
theorem append_cons_ne_append_cons {a b : Char} (hab : a ≠ b) {u v : List Char} (hu : b ∉ u)
    (hv : a ∉ v) (r r' : List Char) : u ++ a :: r ≠ v ++ b :: r' := by
  intro h
  induction u generalizing v with
  | nil =>
    cases v with
    | nil => exact hab (List.cons.inj h).1
    | cons x v =>
      apply hv
      rw [(List.cons.inj h).1]
      exact List.mem_cons_self
  | cons c u ih =>
    cases v with
    | nil =>
      apply hu
      rw [← (List.cons.inj h).1]
      exact List.mem_cons_self
    | cons x v =>
      apply ih (fun hm ↦ hu (List.mem_cons_of_mem _ hm)) (fun hm ↦ hv (List.mem_cons_of_mem _ hm))
      exact (List.cons.inj h).2

/-! ### Runs of blanks -/

/-- No blanks are a run of blanks. -/
@[simp] theorem blanks_nil : Blanks [] := by
  simp [Blanks]

/-- A run of blanks is one blank by one. -/
@[simp] theorem blanks_cons {c : Char} {s : List Char} :
    Blanks (c :: s) ↔ isBlank c = true ∧ Blanks s := by
  simp [Blanks]

/-- Two runs of blanks in a row are one. -/
theorem Blanks.append {w w' : List Char} (hw : Blanks w) (hw' : Blanks w') : Blanks (w ++ w') :=
  List.forall_mem_append.mpr ⟨hw, hw'⟩

/-- The test for a text of blanks. -/
theorem all_isBlank_iff {s : List Char} : s.all isBlank = true ↔ Blanks s := List.all_eq_true

/-- A run of blanks has no name characters. -/
theorem Blanks.isNameChar {w : List Char} (hw : Blanks w) : ∀ c ∈ w, isNameChar c = false :=
  fun c hc ↦ isNameChar_of_isBlank (hw c hc)

/-- A name ends before a separator. -/
theorem Separator.stops_isNameChar {sep : List Char} (h : Separator sep) (s : List Char) :
    Stops isNameChar (sep ++ s) := by
  obtain ⟨c, w, rfl⟩ := List.exists_cons_of_ne_nil h.1
  exact stops_cons.mpr (h.2.isNameChar c List.mem_cons_self)

/-- A run of blanks has no characters of dotted names. -/
theorem Blanks.isDottedChar {w : List Char} (hw : Blanks w) : ∀ c ∈ w, isDottedChar c = false :=
  fun c hc ↦ isDottedChar_of_isBlank (hw c hc)

/-- A character that is no blank is in no run of blanks. -/
theorem Blanks.not_mem {w : List Char} (hw : Blanks w) {c : Char} (hc : isBlank c = false) :
    c ∉ w := by
  intro hm
  rw [hw c hm] at hc
  cases hc

/-- No word goes on after blanks. -/
theorem endsInWord_of_blanks {w : List Char} (hw : Blanks w) : endsInWord false w = false := by
  induction w with
  | nil => rfl
  | cons c w ih =>
    obtain ⟨hc, hw⟩ := blanks_cons.mp hw
    rw [endsInWord, List.foldl_cons, isWordChar_of_isBlank hc]
    exact ih hw

/-- Blanks before a text are trimmed with its own. -/
theorem trimStart_append {w : List Char} (hw : Blanks w) (s : List Char) :
    trimStart (w ++ s) = trimStart s :=
  List.dropWhile_append_of_pos hw

/-- A text that starts with no blank has none trimmed at its start. -/
theorem trimStart_of_stops {s : List Char} (hs : Stops isBlank s) : trimStart s = s :=
  dropWhile_append_of_stops (u := []) (by simp) hs

/-- Blanks up to the first other character are trimmed. -/
theorem trimStart_append_of_stops {w s : List Char} (hw : Blanks w) (hs : Stops isBlank s) :
    trimStart (w ++ s) = s := by
  rw [trimStart_append hw, trimStart_of_stops hs]

/-- What is trimmed at the start is a run of blanks. -/
theorem exists_blanks_append_trimStart (s : List Char) : ∃ w, Blanks w ∧ s = w ++ trimStart s :=
  ⟨s.takeWhile isBlank, List.all_eq_true.mp List.all_takeWhile,
    List.takeWhile_append_dropWhile.symm⟩

/-- No blank is left at the start. -/
theorem stops_trimStart (s : List Char) : Stops isBlank (trimStart s) := stops_dropWhile _ _

/-- What is trimmed at the end is a run of blanks. -/
theorem exists_blanks_trimEnd_append (s : List Char) : ∃ w, Blanks w ∧ s = trimEnd s ++ w := by
  obtain ⟨w, hw, hs⟩ := exists_blanks_append_trimStart s.reverse
  refine ⟨w.reverse, fun c hc ↦ hw c (List.mem_reverse.mp hc), ?_⟩
  have hr := congrArg List.reverse hs
  rwa [List.reverse_reverse, List.reverse_append] at hr

/-- Blanks after the last other character are trimmed. -/
theorem trimEnd_append_of_stops {s w : List Char} (hw : Blanks w) (hs : Stops isBlank s.reverse) :
    trimEnd (s ++ w) = s := by
  have hr : Blanks w.reverse := fun c hc ↦ hw c (List.mem_reverse.mp hc)
  have ht : (w.reverse ++ s.reverse).dropWhile isBlank = s.reverse :=
    dropWhile_append_of_stops hr hs
  rw [trimEnd, List.reverse_append, ht, List.reverse_reverse]

/-- What is trimmed are runs of blanks. -/
theorem exists_blanks_trim (s : List Char) :
    ∃ w w', Blanks w ∧ Blanks w' ∧ s = w ++ (trim s ++ w') := by
  obtain ⟨w, hw, hs⟩ := exists_blanks_append_trimStart s
  obtain ⟨w', hw', ht⟩ := exists_blanks_trimEnd_append (trimStart s)
  refine ⟨w, w', hw, hw', ?_⟩
  rw [trim, ← ht]
  exact hs

/-- Blanks around a text that neither starts nor ends with one are trimmed. -/
theorem trim_append_of_stops {w s w' : List Char} (hw : Blanks w) (hw' : Blanks w')
    (hs : Stops isBlank (s ++ w')) (he : Stops isBlank s.reverse) :
    trim (w ++ (s ++ w')) = s := by
  rw [trim, trimStart_append_of_stops hw hs, trimEnd_append_of_stops hw' he]

/-- Nothing is left of a run of blanks. -/
theorem trim_of_blanks {w : List Char} (hw : Blanks w) : trim w = [] := by
  have h : trim (w ++ ([] ++ [])) = [] :=
    trim_append_of_stops hw blanks_nil (stops_nil _) (stops_nil _)
  simpa using h

/-! ### Pieces of a text -/

/-- A word is skipped where the text starts with it. -/
theorem skipWord?_eq_some_iff {word : String} {s r : List Char} :
    skipWord? word s = some r ↔ s = word.toList ++ r := by
  constructor
  · intro h
    exact (skipWord?_append h).symm
  · rintro rfl
    exact skipChars?_self_append _ _

/-- A character is skipped where the text starts with it. -/
theorem skipChar?_eq_some_iff {c : Char} {s r : List Char} :
    skipChar? c s = some r ↔ s = c :: r := by
  constructor
  · intro h
    exact (skipChar?_cons h).symm
  · rintro rfl
    simp [skipChar?]

/-- A separator is skipped up to the first character that is no blank. -/
theorem skipBlanks?_eq_some_iff {s r : List Char} :
    skipBlanks? s = some r ↔ ∃ w, Separator w ∧ Stops isBlank r ∧ s = w ++ r := by
  constructor
  · intro h
    cases s with
    | nil => cases h
    | cons c s =>
      simp only [skipBlanks?] at h
      split at h
      · next hc =>
        cases h
        obtain ⟨w, hw, hs⟩ := exists_blanks_append_trimStart s
        refine ⟨c :: w, ⟨by simp, blanks_cons.mpr ⟨hc, hw⟩⟩, stops_trimStart s, ?_⟩
        rw [List.cons_append, ← hs]
      · cases h
  · rintro ⟨w, ⟨hne, hw⟩, hr, rfl⟩
    obtain ⟨c, w, rfl⟩ := List.exists_cons_of_ne_nil hne
    obtain ⟨hc, hw⟩ := blanks_cons.mp hw
    simp only [List.cons_append, skipBlanks?, hc, if_true]
    rw [trimStart_append_of_stops hw hr]

/-- A name is not empty. -/
theorem ne_nil_of_isName {name : List Char} (h : isName name = true) : name ≠ [] := by
  rintro rfl
  cases h

/-- A name has name characters only. -/
theorem isNameChar_of_mem_name {name : List Char} (h : isName name = true) :
    ∀ c ∈ name, isNameChar c = true := by
  cases name with
  | nil => cases h
  | cons a name =>
    simp only [isName, Bool.and_eq_true, List.all_eq_true] at h
    intro c hc
    rcases List.mem_cons.mp hc with rfl | hc
    · exact isNameChar_of_isNameStart h.1
    · exact h.2 c hc

/-- A name has characters of dotted names only. -/
theorem isDottedChar_of_mem_name {name : List Char} (h : isName name = true) :
    ∀ c ∈ name, isDottedChar c = true :=
  fun c hc ↦ isDottedChar_of_isNameChar (isNameChar_of_mem_name h c hc)

/-- No other character is in a name. -/
theorem not_mem_of_isName {name : List Char} (h : isName name = true) {c : Char}
    (hc : isNameChar c = false) : c ∉ name := by
  intro hm
  rw [isNameChar_of_mem_name h c hm] at hc
  cases hc

/-- A name starts with no blank. -/
theorem stops_isBlank_name_append {name : List Char} (h : isName name = true) (s : List Char) :
    Stops isBlank (name ++ s) := by
  obtain ⟨c, r, rfl⟩ := List.exists_cons_of_ne_nil (ne_nil_of_isName h)
  rw [List.cons_append, stops_cons]
  exact isBlank_of_isNameChar (isNameChar_of_mem_name h c List.mem_cons_self)

/-- A name is scanned up to the first character that is no name character. -/
theorem scanName?_eq_some_iff {s name r : List Char} :
    scanName? s = some (name, r) ↔ isName name = true ∧ Stops isNameChar r ∧ s = name ++ r := by
  constructor
  · intro h
    refine ⟨isName_of_scanName? h, ?_, (scanName?_append h).symm⟩
    simp only [scanName?] at h
    split at h
    · cases h
      exact stops_dropWhile _ _
    · cases h
  · rintro ⟨hn, hr, rfl⟩
    have hc := isNameChar_of_mem_name hn
    simp only [scanName?, takeWhile_append_of_stops hc hr, dropWhile_append_of_stops hc hr, hn,
      if_true]

/-- A character that does not split a text is in one of its parts. -/
theorem exists_mem_splitOn {a c : Char} {s : List Char} (h : c ∈ s) (hc : c ≠ a) :
    ∃ part ∈ s.splitOn a, c ∈ part := by
  induction s with
  | nil => cases h
  | cons x s ih =>
    rw [List.splitOn_cons_eq_if_modifyHead]
    split
    · next hx =>
      have hs : c ∈ s := by
        rcases List.mem_cons.mp h with rfl | hs
        · exact absurd (eq_of_beq hx) hc
        · exact hs
      obtain ⟨part, hp, hm⟩ := ih hs
      exact ⟨part, List.mem_cons_of_mem _ hp, hm⟩
    · obtain ⟨head, parts, hs⟩ := List.exists_cons_of_ne_nil (List.splitOn_ne_nil a s)
      rw [hs] at ih ⊢
      rcases List.mem_cons.mp h with rfl | hm
      · exact ⟨c :: head, List.mem_cons_self, List.mem_cons_self⟩
      · obtain ⟨part, hp, hm⟩ := ih hm
        rcases List.mem_cons.mp hp with rfl | hp
        · exact ⟨x :: part, List.mem_cons_self, List.mem_cons_of_mem _ hm⟩
        · exact ⟨part, List.mem_cons_of_mem _ hp, hm⟩

/-- The parts of a dotted name between its dots are names. -/
theorem isName_of_mem_splitOn {name part : List Char} (h : isDotted name = true)
    (hp : part ∈ name.splitOn '.') : isName part = true :=
  List.all_eq_true.mp h part hp

/-- A dotted name is a name, or goes on with a dot after one. -/
theorem exists_name_of_isDotted {name : List Char} (h : isDotted name = true) :
    ∃ part r, isName part = true ∧ name = part ++ r := by
  obtain ⟨part, parts, hs⟩ := List.exists_cons_of_ne_nil (List.splitOn_ne_nil '.' name)
  have hn : ['.'].intercalate (name.splitOn '.') = name := List.intercalate_splitOn '.'
  have hp : isName part = true := isName_of_mem_splitOn h (by simp [hs])
  rw [hs] at hn
  cases parts with
  | nil => exact ⟨part, [], hp, by simpa using hn.symm⟩
  | cons q qs =>
    rw [List.intercalate_cons_cons] at hn
    exact ⟨part, _, hp, by rw [← hn, List.append_assoc]⟩

/-- A dotted name is not empty. -/
theorem ne_nil_of_isDotted {name : List Char} (h : isDotted name = true) : name ≠ [] := by
  obtain ⟨part, r, hp, rfl⟩ := exists_name_of_isDotted h
  simp [ne_nil_of_isName hp]

/-- A dotted name has name characters and dots only. -/
theorem isDottedChar_of_mem_dotted {name : List Char} (h : isDotted name = true) :
    ∀ c ∈ name, isDottedChar c = true := by
  intro c hc
  by_cases hd : c = '.'
  · simp [isDottedChar, hd]
  · obtain ⟨part, hp, hm⟩ := exists_mem_splitOn hc hd
    exact isDottedChar_of_mem_name (isName_of_mem_splitOn h hp) c hm

/-- No other character is in a dotted name. -/
theorem not_mem_of_isDotted {name : List Char} (h : isDotted name = true) {c : Char}
    (hc : isDottedChar c = false) : c ∉ name := by
  intro hm
  rw [isDottedChar_of_mem_dotted h c hm] at hc
  cases hc

/-- A dotted name starts with no blank. -/
theorem stops_isBlank_dotted_append {name : List Char} (h : isDotted name = true)
    (s : List Char) : Stops isBlank (name ++ s) := by
  obtain ⟨part, r, hp, rfl⟩ := exists_name_of_isDotted h
  rw [List.append_assoc]
  exact stops_isBlank_name_append hp _

/-- A dotted name is scanned up to the first character that is no name character and no dot. -/
theorem scanDotted?_eq_some_iff {s name r : List Char} :
    scanDotted? s = some (name, r) ↔
      isDotted name = true ∧ Stops isDottedChar r ∧ s = name ++ r := by
  constructor
  · intro h
    refine ⟨isDotted_of_scanDotted? h, ?_, (scanDotted?_append h).symm⟩
    simp only [scanDotted?] at h
    split at h
    · cases h
      exact stops_dropWhile _ _
    · cases h
  · rintro ⟨hn, hr, rfl⟩
    have hc := isDottedChar_of_mem_dotted hn
    simp only [scanDotted?, takeWhile_append_of_stops hc hr, dropWhile_append_of_stops hc hr, hn,
      if_true]

/-- A decimal numeral is one ASCII digit or more. -/
theorem decimal?_eq_some_iff {s : List Char} {n : Nat} :
    decimal? s = some n ↔
      s ≠ [] ∧ (∀ c ∈ s, c.isDigit = true) ∧ n = Nat.ofDigitChars 10 s 0 := by
  unfold decimal?
  constructor
  · intro h
    split at h
    · next hc =>
      cases h
      simp only [Bool.and_eq_true, Bool.not_eq_true', List.isEmpty_eq_false_iff,
        List.all_eq_true] at hc
      exact ⟨hc.1, hc.2, rfl⟩
    · cases h
  · rintro ⟨hne, hd, rfl⟩
    simp [hne, List.all_eq_true.mpr hd]

end WireSchema.Text
