import WireSchema.Codegen.Naming
import WireSchema.Proofs.Text.LetterCase

/-!
# Identifiers of generated Rust code

A name is a Rust identifier if it is written like one and Rust gives it no meaning of its own: it
is not the bare low line and no word that Rust 2021 reserves. Every field name becomes an
identifier. A struct name becomes the same letters and digits without its low lines, so that the
first of them decides: there is none if the name has low lines only, and a digit starts no
identifier.
-/

namespace WireSchema.Naming

open Text

/-- The words that are keywords in Rust 2021. -/
def strictKeywords : List String := [
  "as", "async", "await", "break", "const", "continue", "crate", "dyn", "else", "enum", "extern",
  "false", "fn", "for", "if", "impl", "in", "let", "loop", "match", "mod", "move", "mut", "pub",
  "ref", "return", "self", "Self", "static", "struct", "super", "trait", "true", "type", "unsafe",
  "use", "where", "while"]

/-- The words that Rust 2021 keeps for later. -/
def futureKeywords : List String := [
  "abstract", "become", "box", "do", "final", "macro", "override", "priv", "try", "typeof",
  "unsized", "virtual", "yield"]

/-- The name can name a struct or a field of Rust code. -/
structure IsIdentifier (name : String) : Prop where
  isName : isName name.toList = true
  ne_lowLine : name ≠ "_"
  not_strict : name ∉ strictKeywords
  not_future : name ∉ futureKeywords

/-! ### Escaped names -/

private theorem mem_reserved : ∀ w ∈ "_" :: (strictKeywords ++ futureKeywords), w ∈ reserved := by
  decide

/-- An escaped name is no word with a meaning of its own. -/
theorem escape_ne_of_mem {name w : String} (h : w ∈ "_" :: (strictKeywords ++ futureKeywords)) :
    escape name ≠ w := by
  rintro rfl
  exact escape_not_mem_reserved name (mem_reserved _ h)

/-- A low line behind a name changes nothing about how it starts. -/
theorem isName_escape (name : String) : isName (escape name).toList = isName name.toList := by
  unfold escape
  split
  · next h =>
    have hne : ∀ w ∈ reserved, w.toList ≠ [] := by decide
    obtain ⟨c, r, hc⟩ := List.exists_cons_of_ne_nil (hne name (by simpa using h))
    have hlow : isNameChar '_' = true := by decide
    rw [String.toList_append, hc]
    simp [isName, hlow]
  · rfl

/-- An escaped name is empty only if the name is. -/
theorem escape_eq_empty_iff {name : String} : escape name = "" ↔ name = "" := by
  unfold escape
  split
  · next h =>
    have hne : name ≠ "" := by
      rintro rfl
      revert h
      decide
    rw [← String.toList_inj, String.toList_append]
    simp [hne]
  · rfl

/-- An escaped name has name characters only if the name does. -/
theorem isNameChar_of_mem_escape {name : String} (h : ∀ c ∈ name.toList, isNameChar c = true) :
    ∀ c ∈ (escape name).toList, isNameChar c = true := by
  unfold escape
  split
  · rw [String.toList_append, List.forall_mem_append]
    exact ⟨h, List.all_eq_true.mp (by decide)⟩
  · exact h

/-- An escaped name is an identifier exactly if the name is written like one. -/
theorem isIdentifier_escape_iff {name : String} :
    IsIdentifier (escape name) ↔ isName name.toList = true := by
  rw [← isName_escape]
  constructor
  · exact IsIdentifier.isName
  · intro h
    refine ⟨h, escape_ne_of_mem List.mem_cons_self, fun hm ↦ ?_, fun hm ↦ ?_⟩
    · exact escape_ne_of_mem (List.mem_cons_of_mem _ (List.mem_append_left _ hm)) rfl
    · exact escape_ne_of_mem (List.mem_cons_of_mem _ (List.mem_append_right _ hm)) rfl

/-! ### One character in snake case -/

/-- What snake case puts before a character: a low line where a word starts, or nothing. -/
def wordMark (before : Option Char) (c : Char) (after : List Char) : List Char :=
  if isUpper c && startsWord before after then ['_'] else []

/-- A name character is in lower case in snake case, behind its mark. -/
theorem snakeCaseAfter_cons {c : Char} (hc : isNameChar c = true) (before : Option Char)
    (s : List Char) :
    snakeCaseAfter before (c :: s) =
      wordMark before c s ++ c.toLower :: snakeCaseAfter (some c) s := by
  rw [snakeCaseAfter, wordMark]
  cases hu : isUpper c with
  | false => simp [toLower_of_not_isUpper hc hu]
  | true => cases startsWord before s <;> simp [lower_of_isNameChar hc]

/-- A mark is a low line, before a capital letter, or nothing. -/
theorem wordMark_cases (before : Option Char) (c : Char) (after : List Char) :
    wordMark before c after = [] ∨
      wordMark before c after = ['_'] ∧ isUpper c = true ∧ startsWord before after = true := by
  unfold wordMark
  split
  · next h => exact .inr ⟨rfl, Bool.and_eq_true_iff.mp h⟩
  · exact .inl rfl

/-- A mark has low lines only. -/
theorem eq_lowLine_of_mem_wordMark {before : Option Char} {c d : Char} {after : List Char}
    (h : d ∈ wordMark before c after) : d = '_' := by
  rcases wordMark_cases before c after with hm | ⟨hm, _⟩ <;> rw [hm] at h
  · cases h
  · exact List.mem_singleton.mp h

/-- Nothing is put where no word starts, as before the first character. -/
theorem wordMark_of_not_startsWord {before : Option Char} {after : List Char}
    (h : startsWord before after = false) (c : Char) : wordMark before c after = [] := by
  rw [wordMark, h, Bool.and_false, if_neg Bool.false_ne_true]

/-! ### Field names -/

private theorem isNameChar_of_mem_snakeCaseAfter {s : List Char}
    (h : ∀ c ∈ s, isNameChar c = true) (before : Option Char) :
    ∀ c ∈ snakeCaseAfter before s, isNameChar c = true := by
  induction s generalizing before with
  | nil => simp [snakeCaseAfter]
  | cons c s ih =>
    obtain ⟨hc, hs⟩ := List.forall_mem_cons.mp h
    have hmark : ∀ d ∈ wordMark before c s, isNameChar d = true := by
      intro d hd
      rw [eq_lowLine_of_mem_wordMark hd]
      decide
    rw [snakeCaseAfter_cons hc, List.forall_mem_append, List.forall_mem_cons]
    exact ⟨hmark, isNameChar_toLower hc, ih hs (some c)⟩

/-- A name stays a name in snake case: nothing stands before its first character. -/
theorem isName_snakeCase {s : List Char} (h : isName s = true) : isName (snakeCase s) = true := by
  have hchars := isNameChar_of_mem_name h
  cases s with
  | nil => cases h
  | cons c s =>
    obtain ⟨hc, hs⟩ := List.forall_mem_cons.mp hchars
    have hstart : isNameStart c = true := (Bool.and_eq_true_iff.mp h).1
    have hrest : (snakeCaseAfter (some c) s).all isNameChar = true :=
      List.all_eq_true.mpr (isNameChar_of_mem_snakeCaseAfter hs (some c))
    rw [snakeCase, snakeCaseAfter_cons hc, wordMark_of_not_startsWord rfl, List.nil_append, isName,
      isNameStart_toLower hstart, hrest, Bool.and_self]

/-- A field name becomes an identifier. -/
theorem isIdentifier_fieldName {name : String} (h : isName name.toList = true) :
    IsIdentifier (fieldName name) :=
  isIdentifier_escape_iff.mpr (by rw [String.toList_ofList]; exact isName_snakeCase h)

/-! ### Struct names -/

/-- The parts between two separators have everything else, in order. -/
theorem flatten_splitOn {α : Type} [DecidableEq α] (a : α) (s : List α) :
    (s.splitOn a).flatten = s.filter (· != a) := by
  induction s with
  | nil => simp
  | cons c s ih =>
    obtain ⟨part, parts, hp⟩ := List.exists_cons_of_ne_nil (List.splitOn_ne_nil a s)
    rw [List.splitOn_cons_eq_if_modifyHead]
    split
    · next hc => simp [ih, eq_of_beq hc]
    · next hc =>
      rw [hp, List.flatten_cons] at ih
      have hne : c ≠ a := by simpa using hc
      simp [hp, hne, ih]

/-- Capitalizing a word only changes case. -/
theorem map_toLower_capitalize {word : List Char} (h : ∀ c ∈ word, isNameChar c = true)
    (lowerRest : Bool) : (capitalize lowerRest word).map Char.toLower = word.map Char.toLower := by
  cases word with
  | nil => rfl
  | cons c r =>
    obtain ⟨hc, hr⟩ := List.forall_mem_cons.mp h
    cases lowerRest with
    | false => simp [capitalize, upper_of_isNameChar hc, toLower_toUpper hc]
    | true =>
      have hrest : (r.map Char.toLower).map Char.toLower = r.map Char.toLower := by
        rw [List.map_map]
        exact List.map_congr_left fun d hd ↦ toLower_toLower (hr d hd)
      simp only [capitalize, upper_of_isNameChar hc, lowerText_of_isNameChar hr, if_true,
        List.singleton_append, List.map_cons, toLower_toUpper hc, hrest]

private theorem isNameChar_of_mem_capitalize {word : List Char}
    (h : ∀ c ∈ word, isNameChar c = true) (lowerRest : Bool) :
    ∀ c ∈ capitalize lowerRest word, isNameChar c = true := by
  cases word with
  | nil => simp [capitalize]
  | cons c r =>
    obtain ⟨hc, hr⟩ := List.forall_mem_cons.mp h
    rw [capitalize, upper_of_isNameChar hc, List.singleton_append, List.forall_mem_cons]
    refine ⟨isNameChar_toUpper hc, ?_⟩
    split
    · rw [lowerText_of_isNameChar hr, List.forall_mem_map]
      exact fun d hd ↦ isNameChar_toLower (hr d hd)
    · exact hr

private theorem isNameChar_of_mem_words {s : List Char} (h : ∀ c ∈ s, isNameChar c = true) :
    ∀ word ∈ (s.splitOn '_').filter fun word ↦ !word.isEmpty, ∀ c ∈ word, isNameChar c = true := by
  intro word hw c hc
  have hm : c ∈ (s.splitOn '_').flatten := List.mem_flatten_of_mem (List.mem_filter.mp hw).1 hc
  rw [flatten_splitOn] at hm
  exact h c (List.mem_filter.mp hm).1

/-- A name has name characters only in Pascal case. -/
theorem isNameChar_of_mem_pascalCase {s : List Char} (h : ∀ c ∈ s, isNameChar c = true) :
    ∀ c ∈ pascalCase s, isNameChar c = true := by
  unfold pascalCase
  split
  · intro c hc
    obtain ⟨word, hw, hm⟩ := List.mem_flatMap.mp hc
    exact isNameChar_of_mem_capitalize (isNameChar_of_mem_words h word hw) true c hm
  · exact isNameChar_of_mem_capitalize h _

/-- Apart from case, a name in Pascal case is the name without its low lines. -/
theorem map_toLower_pascalCase {s : List Char} (h : ∀ c ∈ s, isNameChar c = true) :
    (pascalCase s).map Char.toLower = (s.filter (· != '_')).map Char.toLower := by
  unfold pascalCase
  split
  · have hwords := isNameChar_of_mem_words h
    rw [← flatten_splitOn, ← List.flatten_filter_not_isEmpty, List.map_flatMap, List.map_flatten,
      List.flatMap_def]
    exact congrArg List.flatten
      (List.map_congr_left fun word hw ↦ map_toLower_capitalize (hwords word hw) true)
  · next hlow =>
    rw [map_toLower_capitalize h, List.filter_eq_self.mpr]
    rintro c hc
    have hne : c ≠ '_' := by
      rintro rfl
      exact hlow (by simpa using hc)
    simpa using hne

/-- Nothing is left of a name in Pascal case exactly if it has low lines only. -/
theorem pascalCase_eq_nil_iff {s : List Char} (h : ∀ c ∈ s, isNameChar c = true) :
    pascalCase s = [] ↔ ∀ c ∈ s, c = '_' := by
  rw [← List.map_eq_nil_iff (f := Char.toLower), map_toLower_pascalCase h, List.map_eq_nil_iff,
    List.filter_eq_nil_iff]
  simp

/-- A name starts in Pascal case as it does after its low lines, apart from case. -/
theorem isDigit_head?_pascalCase {s : List Char} (h : ∀ c ∈ s, isNameChar c = true) :
    (pascalCase s).head?.map Char.isDigit = (s.find? (· != '_')).map Char.isDigit := by
  have hlower {t : List Char} (ht : ∀ c ∈ t, isNameChar c = true) :
      (t.map Char.toLower).head?.map Char.isDigit = t.head?.map Char.isDigit := by
    cases t with
    | nil => rfl
    | cons c t => simp [isDigit_toLower (ht c List.mem_cons_self)]
  rw [← hlower (isNameChar_of_mem_pascalCase h), map_toLower_pascalCase h, hlower,
    List.head?_filter]
  exact fun c hc ↦ h c (List.mem_filter.mp hc).1

/-- A struct name has name characters only. -/
theorem isNameChar_of_mem_structName {name : String} (h : isName name.toList = true) :
    ∀ c ∈ (structName name).toList, isNameChar c = true := by
  apply isNameChar_of_mem_escape
  rw [String.toList_ofList]
  exact isNameChar_of_mem_pascalCase (isNameChar_of_mem_name h)

private theorem isLower_head?_capitalize {word : List Char} (h : ∀ c ∈ word, isNameChar c = true)
    (lowerRest : Bool) : ∀ c ∈ (capitalize lowerRest word).head?, c.isLower = false := by
  cases word with
  | nil => simp [capitalize]
  | cons c r =>
    have hc := h c List.mem_cons_self
    simp [capitalize, upper_of_isNameChar hc, isLower_toUpper hc]

/-- A name in Pascal case starts with no small letter. -/
theorem isLower_head?_pascalCase {s : List Char} (h : ∀ c ∈ s, isNameChar c = true) :
    ∀ c ∈ (pascalCase s).head?, c.isLower = false := by
  unfold pascalCase
  split
  · have hwords := isNameChar_of_mem_words h
    generalize (s.splitOn '_').filter (fun word ↦ !word.isEmpty) = words at hwords
    induction words with
    | nil => simp
    | cons word words ih =>
      obtain ⟨hword, hwords⟩ := List.forall_mem_cons.mp hwords
      intro c hc
      rw [List.flatMap_cons, List.head?_append] at hc
      rcases Option.or_eq_some_iff.mp hc with hc | ⟨_, hc⟩
      · exact isLower_head?_capitalize hword true c hc
      · exact ih hwords c hc
  · exact isLower_head?_capitalize h _

/-- A struct name starts with no small letter. -/
theorem isLower_head?_structName {name : String} (h : isName name.toList = true) :
    ∀ c ∈ (structName name).toList.head?, c.isLower = false := by
  have hpascal := isLower_head?_pascalCase (isNameChar_of_mem_name h)
  unfold structName escape
  split
  · intro c hc
    rw [String.toList_append, String.toList_ofList, List.head?_append] at hc
    rcases Option.or_eq_some_iff.mp hc with hc | ⟨_, hc⟩
    · exact hpascal c hc
    · obtain rfl : '_' = c := Option.some.inj hc
      decide
  · rwa [String.toList_ofList]

/-- A struct name is empty exactly if the name has low lines only. -/
theorem structName_eq_empty_iff {name : String} (h : isName name.toList = true) :
    structName name = "" ↔ ∀ c ∈ name.toList, c = '_' := by
  rw [structName, escape_eq_empty_iff, ← pascalCase_eq_nil_iff (isNameChar_of_mem_name h),
    ← String.toList_inj, String.toList_ofList]
  rfl

/-- A name makes a struct name that is an identifier exactly if its first character apart from low
lines is there and no digit. -/
theorem isIdentifier_structName_iff {name : String} (h : isName name.toList = true) :
    IsIdentifier (structName name) ↔
      (name.toList.find? (· != '_')).map Char.isDigit = some false := by
  have hchars := isNameChar_of_mem_pascalCase (isNameChar_of_mem_name h)
  rw [structName, isIdentifier_escape_iff, String.toList_ofList,
    ← isDigit_head?_pascalCase (isNameChar_of_mem_name h)]
  cases hp : pascalCase name.toList with
  | nil => simp [isName]
  | cons c r =>
    rw [hp] at hchars
    obtain ⟨hc, hr⟩ := List.forall_mem_cons.mp hchars
    have hall : r.all isNameChar = true := List.all_eq_true.mpr hr
    simp [isName, isNameStart_eq_not_isDigit hc, hall]

end WireSchema.Naming
