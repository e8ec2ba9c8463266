import Mathlib.Tactic.SplitIfs
import WireSchema.Proofs.Text.Numeral
import WireSchema.Text.Quoted

/-!
# Quoted texts that are read back

`quotedChars?` reads a string in the notation of JSON: with every escape that the notation has, also
the two code units of a surrogate pair, and without control characters that are not escaped. A
quoted text is read back as the text that it was made from, and what follows it is found where it
ends, so it is the quoted form of no other text. `quotedTexts?` reads all quoted texts in a text.
-/

namespace WireSchema.Text

/-! ### Reading -/

/-- The code unit that a character stands for behind a backslash. -/
def escapedUnit? (c : Char) : Option Nat :=
  match c with
  | '"' | '\\' | '/' => some c.toNat
  | 'b' => some 0x08
  | 't' => some 0x09
  | 'n' => some 0x0a
  | 'f' => some 0x0c
  | 'r' => some 0x0d
  | _ => none

/-- The code unit with the given hexadecimal digits, in either case. -/
def hexUnit? (digits : List Char) : Option Nat := upperHexValue? (digits.map Char.toUpper)

/-- One code unit more in front of what is read. -/
def withUnit (unit : Nat) (found : List Nat × List Char) : List Nat × List Char :=
  (unit :: found.1, found.2)

/-- The code units up to the quote that ends a text, and what follows that quote. A character that
is not escaped counts as one unit, and control characters have to be escaped. -/
def quotedUnits? : List Char → Option (List Nat × List Char)
  | [] => none
  | '"' :: r => some ([], r)
  | '\\' :: 'u' :: a :: b :: c :: d :: r =>
    (hexUnit? [a, b, c, d]).bind fun unit ↦ (quotedUnits? r).map (withUnit unit)
  | '\\' :: c :: r =>
    (escapedUnit? c).bind fun unit ↦ (quotedUnits? r).map (withUnit unit)
  | c :: r => if c.toNat < 0x20 then none else (quotedUnits? r).map (withUnit c.toNat)

/-- The characters of code units, two of them for a surrogate pair; no surrogate stands alone. -/
def ofUnits? : List Nat → Option (List Char)
  | [] => some []
  | [unit] => if unit.isValidChar then some [Char.ofNat unit] else none
  | high :: low :: units =>
    if high.isValidChar then (ofUnits? (low :: units)).map (Char.ofNat high :: ·)
    else if 0xd800 ≤ high ∧ high < 0xdc00 ∧ 0xdc00 ≤ low ∧ low < 0xe000 then
      (ofUnits? units).map (Char.ofNat (0x10000 + 0x400 * (high - 0xd800) + (low - 0xdc00)) :: ·)
    else none

/-- The text up to the quote that ends it, and what follows that quote. -/
def quotedChars? (s : List Char) : Option (List Char × List Char) := do
  let (units, rest) ← quotedUnits? s
  let t ← ofUnits? units
  some (t, rest)

private theorem length_withUnit {unit k : Nat} {read : Option (List Nat × List Char)}
    {found : List Nat × List Char} (hread : ∀ rest, read = some rest → rest.2.length < k)
    (h : read.map (withUnit unit) = some found) : found.2.length < k := by
  obtain ⟨rest, hrest, rfl⟩ := Option.map_eq_some_iff.mp h
  exact hread rest hrest

/-- Reading code units uses up the quote that ends the text. -/
theorem length_quotedUnits? {s : List Char} {found : List Nat × List Char}
    (h : quotedUnits? s = some found) : found.2.length < s.length := by
  induction s using quotedUnits?.induct generalizing found with
  | case1 => cases h
  | case2 r =>
    cases h
    exact Nat.lt_succ_self _
  | case3 a b c d r ih =>
    obtain ⟨unit, _, hunits⟩ := Option.bind_eq_some_iff.mp h
    have hlength := length_withUnit (fun _ ↦ ih) hunits
    simp only [List.length_cons]
    omega
  | case4 c r hc ih =>
    rw [quotedUnits?] at h
    · obtain ⟨unit, _, hunits⟩ := Option.bind_eq_some_iff.mp h
      have hlength := length_withUnit (fun _ ↦ ih) hunits
      simp only [List.length_cons]
      omega
    · exact hc
  | case5 c r hquote hcoded hescaped hc =>
    rw [quotedUnits?, if_pos hc] at h
    · cases h
    · exact hquote
    · exact hcoded
    · exact hescaped
  | case6 c r hquote hcoded hescaped hc ih =>
    rw [quotedUnits?, if_neg hc] at h
    · have hlength := length_withUnit (fun _ ↦ ih) h
      exact Nat.lt_trans hlength (Nat.lt_succ_self _)
    · exact hquote
    · exact hcoded
    · exact hescaped

/-- Reading a text uses up the quote that ends it. -/
theorem length_quotedChars? {s : List Char} {found : List Char × List Char}
    (h : quotedChars? s = some found) : found.2.length < s.length := by
  simp only [quotedChars?, Option.bind_eq_bind, Option.bind_eq_some_iff] at h
  obtain ⟨units, hunits, t, _, h⟩ := h
  cases h
  exact length_quotedUnits? hunits

/-- The texts that stand between quotes, from the first quote on. -/
def quotedTexts? : List Char → Option (List (List Char))
  | [] => some []
  | c :: r =>
    if c = '"' then
      match _h : quotedChars? r with
      | some (t, rest) => (quotedTexts? rest).map (t :: ·)
      | none => none
    else quotedTexts? r
termination_by s => s.length
decreasing_by
  · exact Nat.lt_trans (length_quotedChars? _h) (Nat.lt_succ_self _)
  · simp

/-! ### Reading what was quoted -/

private theorem hexUnit?_lowerHexDigit :
    ∀ n < 0x20, hexUnit? ['0', '0', lowerHexDigit (n / 16), lowerHexDigit (n % 16)] = some n := by
  decide

/-- An escaped character is read as one code unit. -/
theorem quotedUnits?_escapeChar (c : Char) (r : List Char) :
    quotedUnits? (escapeChar c ++ r) = (quotedUnits? r).map (withUnit c.toNat) := by
  unfold escapeChar
  split_ifs with hquote hslash hb ht hn hf hr hc
  · rw [hquote]; rfl
  · rw [hslash]; rfl
  · rw [hb]; rfl
  · rw [ht]; rfl
  · rw [hn]; rfl
  · rw [hf]; rfl
  · rw [hr]; rfl
  · simp only [List.cons_append, List.nil_append]
    rw [quotedUnits?, hexUnit?_lowerHexDigit _ hc, Option.bind_some]
  · rw [List.singleton_append, quotedUnits?, if_neg hc]
    · exact hquote
    · exact fun _ _ _ _ _ he ↦ absurd he hslash
    · exact fun _ _ he ↦ absurd he hslash

/-- Escaped characters are read as one code unit each. -/
theorem quotedUnits?_flatMap (s r : List Char) :
    quotedUnits? (s.flatMap escapeChar ++ '"' :: r) = some (s.map Char.toNat, r) := by
  induction s with
  | nil => rfl
  | cons c s ih =>
    rw [List.flatMap_cons, List.append_assoc, quotedUnits?_escapeChar, ih]
    rfl

/-- A character is one code unit. -/
theorem ofUnits?_map_toNat (s : List Char) : ofUnits? (s.map Char.toNat) = some s := by
  induction s with
  | nil => rfl
  | cons c s ih =>
    have hvalid : c.toNat.isValidChar := c.valid
    cases s with
    | nil =>
      rw [List.map_singleton, ofUnits?, if_pos hvalid, Char.ofNat_toNat]
    | cons d s =>
      rw [List.map_cons, List.map_cons, ofUnits?, if_pos hvalid, ← List.map_cons, ih,
        Option.map_some, Char.ofNat_toNat]

/-- A quoted text is read back, and what follows it is what follows its last quote. -/
theorem quotedChars?_flatMap (s r : List Char) :
    quotedChars? (s.flatMap escapeChar ++ '"' :: r) = some (s, r) := by
  simp only [quotedChars?, quotedUnits?_flatMap, ofUnits?_map_toNat, Option.bind_eq_bind,
    Option.bind_some]

/-- A quoted text is the quoted form of one text only. -/
theorem quote_inj {s t : String} : quote s = quote t ↔ s = t := by
  constructor
  · intro h
    have hread (u : String) : quotedChars? (quote u).toList.tail = some (u.toList, []) := by
      rw [toList_quote]
      exact quotedChars?_flatMap u.toList []
    have hs := hread s
    rw [h, hread t, Option.some.injEq, Prod.mk.injEq] at hs
    exact String.toList_inj.mp hs.1.symm
  · exact congrArg quote

/-- Between quotes stands what was quoted. -/
theorem quotedTexts?_quote_append (s : String) (r : List Char) :
    quotedTexts? ((quote s).toList ++ r) = (quotedTexts? r).map (s.toList :: ·) := by
  rw [toList_quote, List.cons_append, List.append_assoc, quotedTexts?, if_pos rfl]
  split
  · next t rest h =>
    cases h.symm.trans (quotedChars?_flatMap s.toList r)
    rfl
  · next h => cases h.symm.trans (quotedChars?_flatMap s.toList r)

/-- Nothing stands between quotes before the first quote. -/
theorem quotedTexts?_append_of_not_mem {front : List Char} (h : '"' ∉ front) (s : List Char) :
    quotedTexts? (front ++ s) = quotedTexts? s := by
  induction front with
  | nil => rfl
  | cons c front ih =>
    obtain ⟨hc, hfront⟩ := List.ne_and_not_mem_of_not_mem_cons h
    rw [List.cons_append, quotedTexts?, if_neg hc.symm, ih hfront]

/-! ### Control characters -/

/-- Whether the character is no control character below U+0020. -/
def isPrinted (c : Char) : Bool := decide (0x20 ≤ c.toNat)

private theorem all_isPrinted_lowerHexDigit :
    ∀ n < 0x20, ['\\', 'u', '0', '0', lowerHexDigit (n / 16), lowerHexDigit (n % 16)].all
      isPrinted = true := by
  decide

/-- An escaped character has no control characters. -/
theorem all_isPrinted_escapeChar (c : Char) : (escapeChar c).all isPrinted = true := by
  unfold escapeChar
  split_ifs with hquote hslash hb ht hn hf hr hc
  · rfl
  · rfl
  · rfl
  · rfl
  · rfl
  · rfl
  · rfl
  · exact all_isPrinted_lowerHexDigit _ hc
  · simpa [isPrinted] using hc

/-- A quoted text has no control characters. -/
theorem le_toNat_of_mem_quote {s : String} : ∀ c ∈ (quote s).toList, 0x20 ≤ c.toNat := by
  rw [toList_quote, List.forall_mem_cons, List.forall_mem_append, List.forall_mem_singleton]
  refine ⟨by decide, fun c hc ↦ ?_, by decide⟩
  obtain ⟨a, _, hc⟩ := List.mem_flatMap.mp hc
  exact of_decide_eq_true (List.all_eq_true.mp (all_isPrinted_escapeChar a) c hc)

/-! ### Lines with quoted texts -/

/-- A character that stands for itself in a line and starts no quoted text. -/
def isPlain (c : Char) : Bool := isPrinted c && c != '"'

/-- Words of plain characters. The characters come with an equation, so that looking at fixed words
does not decode them. -/
def IsWording (words : String) : Prop := ∃ w, words = String.ofList w ∧ w.all isPlain = true

/-- The text is a line without control characters, with the given texts between quotes. -/
structure Quotes (s : String) (texts : List String) : Prop where
  read : quotedTexts? s.toList = some (texts.map String.toList)
  noControl : ∀ c ∈ s.toList, 0x20 ≤ c.toNat

/-- Digits are plain. -/
theorem isPlain_of_isDigit {c : Char} (h : c.isDigit = true) : isPlain c = true := by
  have hle : 0x30 ≤ c.toNat :=
    UInt32.le_iff_toNat_le.mp (of_decide_eq_true (Bool.and_eq_true_iff.mp h).1)
  have hquote : c ≠ '"' := by
    rintro rfl
    revert h
    decide
  have hcontrol : 0x20 ≤ c.toNat := by omega
  simp [isPlain, isPrinted, hcontrol, hquote]

/-- A numeral is a wording. -/
theorem isWording_toString (n : Nat) : IsWording (toString n) :=
  ⟨_, String.ofList_toList.symm,
    List.all_eq_true.mpr fun c hc ↦ isPlain_of_isDigit (isDigit_of_mem_toString c hc)⟩

variable {s : String} {texts : List String}

/-- Words may stand before a quoted text. -/
theorem Quotes.words_append (hs : Quotes s texts) {words : String} (hwords : IsWording words) :
    Quotes (words ++ s) texts := by
  obtain ⟨w, rfl, hplain⟩ := hwords
  have hchars := List.all_eq_true.mp hplain
  constructor
  · have hquote : '"' ∉ w := fun h ↦ absurd (hchars _ h) (by decide)
    rw [String.toList_append, String.toList_ofList, quotedTexts?_append_of_not_mem hquote, hs.read]
  · rw [String.toList_append, String.toList_ofList, List.forall_mem_append]
    exact ⟨fun c hc ↦ of_decide_eq_true (Bool.and_eq_true_iff.mp (hchars c hc)).1, hs.noControl⟩

/-- A quoted text may stand before others. -/
theorem Quotes.quote_append (hs : Quotes s texts) (t : String) :
    Quotes (quote t ++ s) (t :: texts) := by
  constructor
  · rw [String.toList_append, quotedTexts?_quote_append, hs.read]
    rfl
  · rw [String.toList_append, List.forall_mem_append]
    exact ⟨le_toNat_of_mem_quote, hs.noControl⟩

/-- The empty text quotes nothing. -/
theorem quotes_empty : Quotes "" [] := by
  constructor
  · rw [String.toList_empty, quotedTexts?]
    rfl
  · simp

/-- Words quote nothing. -/
theorem quotes_words {words : String} (hwords : IsWording words) : Quotes words [] := by
  have h := quotes_empty.words_append hwords
  rwa [String.append_empty] at h

/-- A quoted text quotes what it was made from. -/
theorem quotes_quote (t : String) : Quotes (quote t) [t] := by
  have h := quotes_empty.quote_append t
  rwa [String.append_empty] at h

/-- A quoted text may stand between words. -/
theorem quotes_between (t : String) {front back : String} (hfront : IsWording front)
    (hback : IsWording back) : Quotes (front ++ quote t ++ back) [t] := by
  rw [String.append_assoc]
  exact ((quotes_words hback).quote_append t).words_append hfront

end WireSchema.Text
