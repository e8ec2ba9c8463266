import WireSchema.Codegen.CppHeader
import WireSchema.Codegen.RustModule
import WireSchema.Proofs.Text.Scan

/-!
# The value of size expressions

Generated code gives the payload size as a text, which the compiler of the target language reads: a
sum of terms, where a term is an operand or a product of operands in parentheses, and an operand is
the size of a type or a number. `value?` reads such a text in the dialect of a language and computes
in words of 32 bits, without a value as soon as a number, a product or a partial sum does not fit in
one. The main statement says that the expression for a list of fields has their exact size as its
value, as long as that fits.
-/

namespace WireSchema

open Text

namespace Text

/-- The text starts and ends with a character that is no blank. -/
def Framed (s : List Char) : Prop := s ≠ [] ∧ Stops isBlank s ∧ Stops isBlank s.reverse

/-- A text is framed if no blank is in it. -/
theorem framed_of_forall {s : List Char} (hne : s ≠ []) (h : ∀ c ∈ s, isBlank c = false) :
    Framed s :=
  ⟨hne, fun c hc ↦ h c (List.mem_of_mem_head? hc),
    fun c hc ↦ h c (List.mem_reverse.mp (List.mem_of_mem_head? hc))⟩

/-- Blanks around a framed text are trimmed. -/
theorem Framed.trim {s w w' : List Char} (h : Framed s) (hw : Blanks w) (hw' : Blanks w') :
    trim (w ++ (s ++ w')) = s := by
  obtain ⟨c, r, rfl⟩ := List.exists_cons_of_ne_nil h.1
  exact trim_append_of_stops hw hw' (stops_cons.mpr (stops_cons.mp h.2.1)) h.2.2

/-- A character that is in none of the texts and not between two of them is not in the whole. -/
theorem not_mem_intercalate {a : Char} {sep : List Char} {ls : List (List Char)} (hs : a ∉ sep)
    (h : ∀ l ∈ ls, a ∉ l) : a ∉ sep.intercalate ls := by
  induction ls with
  | nil => simp
  | cons l ls ih =>
    obtain ⟨hl, hls⟩ := List.forall_mem_cons.mp h
    cases ls with
    | nil => rwa [List.intercalate_singleton]
    | cons next ls =>
      rw [List.intercalate_cons_cons]
      simp only [List.mem_append, not_or]
      exact ⟨⟨hl, hs⟩, ih hls⟩

/-- Framed texts with an operator and blanks between them are found again at the operators. -/
theorem map_trim_splitOn_intercalate {c : Char} (hc : isBlank c = false) {w : List Char}
    (hw : Blanks w) {ls : List (List Char)} (hne : ls ≠ []) (h : ∀ l ∈ ls, c ∉ l ∧ Framed l) :
    ((w ++ [' ', c, ' '].intercalate ls).splitOn c).map Text.trim = ls := by
  induction ls generalizing w with
  | nil => exact absurd rfl hne
  | cons l ls ih =>
    obtain ⟨⟨hl, hframed⟩, hls⟩ := List.forall_mem_cons.mp h
    have hblank : Blanks [' '] := by simp [show isBlank ' ' = true by decide]
    cases ls with
    | nil =>
      have hmem : c ∉ w ++ l := by simp [hl, hw.not_mem hc]
      have ht := hframed.trim hw blanks_nil
      rw [List.append_nil] at ht
      rw [List.intercalate_singleton, List.splitOn_eq_singleton hmem, List.map_singleton, ht]
    | cons next ls =>
      have hmem : c ∉ w ++ (l ++ [' ']) := by
        have hne : c ≠ ' ' := by
          rintro rfl
          revert hc
          decide
        simp [hl, hw.not_mem hc, hne]
      have hi := ih hblank (by simp) hls
      have hjoin : w ++ [' ', c, ' '].intercalate (l :: next :: ls) =
          (w ++ (l ++ [' '])) ++ c :: ([' '] ++ [' ', c, ' '].intercalate (next :: ls)) := by
        rw [List.intercalate_cons_cons]
        simp
      rw [hjoin, List.splitOn_append_cons_self_of_not_mem hmem, List.map_cons, hi,
        hframed.trim hw hblank]

end Text

/-- The characters of operands: those of names, brackets and paths. -/
def isOperandChar (c : Char) : Bool :=
  isNameChar c || c == '(' || c == ')' || c == '<' || c == '>' || c == ':'

/-- How a language writes operands: the size of a type as the name of the type between two fixed
texts, and a number as its digits with a suffix. -/
structure SizeDialect where
  opening : String
  typeName : ScalarType → String
  closing : String
  suffix : String
  typeName_injective : ∀ t t', typeName t = typeName t' → t = t'
  opening_head : ∃ c r, opening.toList = c :: r ∧ c ≠ '(' ∧ c.isDigit = false
  isOperandChar_sizeOf : ∀ t, ∀ c ∈ opening.toList ++ ((typeName t).toList ++ closing.toList),
    isOperandChar c = true
  isNameChar_suffix : ∀ c ∈ suffix.toList, isNameChar c = true ∧ c.isDigit = false

namespace SizeDialect

/-- The operands of C++. -/
def cpp : SizeDialect where
  opening := "sizeof("
  typeName := ScalarType.name
  closing := ")"
  suffix := "u"
  typeName_injective := by
    intro t t' h
    have hfound := congrArg ScalarType.ofName? h
    rwa [ScalarType.ofName?_name, ScalarType.ofName?_name, Option.some.injEq] at hfound
  opening_head := ⟨'s', "izeof(".toList, rfl, by decide, by decide⟩
  isOperandChar_sizeOf := by
    intro t
    apply List.all_eq_true.mp
    cases t <;> decide
  isNameChar_suffix c hc := by
    obtain rfl : c = 'u' := List.mem_singleton.mp hc
    decide

/-- The operands of Rust. -/
def rust : SizeDialect where
  opening := "::core::mem::size_of::<"
  typeName := RustModule.scalarName
  closing := ">()"
  suffix := ""
  typeName_injective := by
    intro t t'
    cases t <;> cases t' <;> decide
  opening_head := ⟨':', ":core::mem::size_of::<".toList, rfl, by decide, by decide⟩
  isOperandChar_sizeOf := by
    intro t
    apply List.all_eq_true.mp
    cases t <;> decide
  isNameChar_suffix _ hc := absurd hc List.not_mem_nil

variable (d : SizeDialect)

/-! ### Reading expressions -/

/-- A number, if a word of 32 bits holds it. -/
def word? (n : Nat) : Option Nat := if n < UInt32.size then some n else none

/-- The value of a text that is an operand. -/
def operandValue? (s : List Char) : Option Nat :=
  match skipWord? d.opening s with
  | some r =>
    (ScalarType.all.find? fun t ↦ r == (d.typeName t).toList ++ d.closing.toList).map
      ScalarType.size
  | none =>
    if s.dropWhile Char.isDigit = d.suffix.toList then
      (decimal? (s.takeWhile Char.isDigit)).bind word?
    else none

/-- A product with one more operand. -/
def multiply? (product : Nat) (operand : List Char) : Option Nat :=
  (d.operandValue? operand).bind fun n ↦ word? (product * n)

/-- The value of a text that is an operand, or a product of operands in parentheses. -/
def termValue? (s : List Char) : Option Nat :=
  match skipChar? '(' s with
  | some r =>
    if r.getLast? = some ')' then ((r.dropLast.splitOn '*').map trim).foldlM d.multiply? 1
    else none
  | none => d.operandValue? s

/-- A sum with one more term. -/
def add? (total : Nat) (term : List Char) : Option Nat :=
  (d.termValue? term).bind fun n ↦ word? (total + n)

/-- The value of a text that is a sum of terms. -/
def value? (s : String) : Option Nat := ((s.toList.splitOn '+').map trim).foldlM d.add? 0

/-! ### Writing expressions -/

/-- The size of a type as it is written. -/
def sizeOf (t : ScalarType) : List Char :=
  d.opening.toList ++ ((d.typeName t).toList ++ d.closing.toList)

/-- A number as it is written. -/
def literal (n : Nat) : List Char := Nat.toDigits 10 n ++ d.suffix.toList

/-- The size of a field as it is written. -/
def term (f : Field) : List Char :=
  match f.length with
  | none => d.sizeOf f.type
  | some n => '(' :: (d.sizeOf f.type ++ (" * ".toList ++ (d.literal n.toNat ++ [')'])))

/-- The size of fields as it is written. -/
def expression (fields : List Field) : List Char :=
  if fields.isEmpty then d.literal 0 else " + ".toList.intercalate (fields.map d.term)

/-! ### The characters of expressions -/

/-- An operand has no blanks. -/
theorem isBlank_of_isOperandChar {c : Char} (h : isOperandChar c = true) : isBlank c = false := by
  simp only [isOperandChar, Bool.or_eq_true, beq_iff_eq] at h
  rcases h with ((((h | rfl) | rfl) | rfl) | rfl) | rfl
  · exact isBlank_of_isNameChar h
  all_goals decide

/-- An operand has no other characters. -/
theorem not_mem_of_isOperandChar {s : List Char} (h : ∀ c ∈ s, isOperandChar c = true) {a : Char}
    (ha : isOperandChar a = false) : a ∉ s := by
  intro hm
  rw [h a hm] at ha
  cases ha

/-- A number is written with characters of operands. -/
theorem isOperandChar_literal (n : Nat) : ∀ c ∈ d.literal n, isOperandChar c = true := by
  rw [literal, List.forall_mem_append]
  refine ⟨fun c hc ↦ ?_, fun c hc ↦ ?_⟩
  · have hdigit := Nat.isDigit_of_mem_toDigits (by decide) (by decide) hc
    simp [isOperandChar, isNameChar_of_isDigit hdigit]
  · simp [isOperandChar, (d.isNameChar_suffix c hc).1]

/-- The size of a type is framed by characters that are no blanks. -/
theorem framed_sizeOf (t : ScalarType) : Framed (d.sizeOf t) := by
  obtain ⟨c, r, hc, _⟩ := d.opening_head
  exact framed_of_forall (by simp [sizeOf, hc]) fun c hc ↦
    isBlank_of_isOperandChar (d.isOperandChar_sizeOf t c hc)

/-- A number is framed by characters that are no blanks. -/
theorem framed_literal (n : Nat) : Framed (d.literal n) :=
  framed_of_forall (by simp [literal, Nat.toDigits_ne_nil]) fun c hc ↦
    isBlank_of_isOperandChar (d.isOperandChar_literal n c hc)

/-- A term is framed by characters that are no blanks. -/
theorem framed_term (f : Field) : Framed (d.term f) := by
  unfold term
  split
  · exact d.framed_sizeOf f.type
  · refine ⟨by simp, stops_cons.mpr (by decide), ?_⟩
    simp only [List.reverse_cons, List.reverse_append, List.reverse_nil, List.nil_append,
      List.cons_append]
    exact stops_cons.mpr (by decide)

/-- A term has the characters of operands, blanks and asterisks only. -/
theorem not_mem_term (f : Field) {a : Char} (ha : isOperandChar a = false) (hb : a ≠ ' ')
    (hc : a ≠ '*') : a ∉ d.term f := by
  have hopen : a ≠ '(' := by
    rintro rfl
    revert ha
    decide
  have hclose : a ≠ ')' := by
    rintro rfl
    revert ha
    decide
  have hsize := not_mem_of_isOperandChar (d.isOperandChar_sizeOf f.type) ha
  unfold term
  split
  · exact hsize
  · next n _ =>
    have hoperator : a ∉ " * ".toList := by simp [hb, hc]
    have hliteral := not_mem_of_isOperandChar (d.isOperandChar_literal n.toNat) ha
    simp only [List.mem_cons, List.mem_append, List.not_mem_nil, or_false, not_or]
    exact ⟨hopen, hsize, hoperator, hliteral, hclose⟩

/-- An expression has the characters of operands, blanks, asterisks and plus signs only. -/
theorem not_mem_expression (fields : List Field) {a : Char} (ha : isOperandChar a = false)
    (hb : a ≠ ' ') (hc : a ≠ '*') (hd : a ≠ '+') : a ∉ d.expression fields := by
  unfold expression
  split
  · exact not_mem_of_isOperandChar (d.isOperandChar_literal 0) ha
  · apply not_mem_intercalate
    · simp [hb, hd]
    · intro l hl
      obtain ⟨f, _, rfl⟩ := List.mem_map.mp hl
      exact d.not_mem_term f ha hb hc

/-! ### The value of expressions -/

/-- The size of a type is read as that size. -/
theorem operandValue?_sizeOf (t : ScalarType) : d.operandValue? (d.sizeOf t) = some t.size := by
  have hfind : (ScalarType.all.find? fun t' ↦
      (d.typeName t).toList ++ d.closing.toList == (d.typeName t').toList ++ d.closing.toList) =
        some t := by
    cases hf : ScalarType.all.find? fun t' ↦
      (d.typeName t).toList ++ d.closing.toList == (d.typeName t').toList ++ d.closing.toList with
    | none => exact absurd (List.find?_eq_none.mp hf t t.mem_all) (by simp)
    | some t' =>
      have hfound := List.find?_some hf
      rw [beq_iff_eq] at hfound
      have hname := String.toList_inj.mp (List.append_cancel_right hfound)
      rw [d.typeName_injective t t' hname]
  simp only [operandValue?, sizeOf, skipWord?_eq_some_iff.mpr rfl, hfind, Option.map_some]

/-- A number that fits in a word is read as itself. -/
theorem operandValue?_literal {n : Nat} (h : n < UInt32.size) :
    d.operandValue? (d.literal n) = some n := by
  have hdigits : ∀ c ∈ Nat.toDigits 10 n, c.isDigit = true := fun c hc ↦
    Nat.isDigit_of_mem_toDigits (by decide) (by decide) hc
  have hsuffix : Stops Char.isDigit d.suffix.toList := fun c hc ↦
    (d.isNameChar_suffix c (List.mem_of_mem_head? hc)).2
  have hskip : skipWord? d.opening (d.literal n) = none := by
    -- The text before a type starts with another character than a number.
    obtain ⟨c, r, hc, _, hdigit⟩ := d.opening_head
    obtain ⟨a, digits, ha⟩ := List.exists_cons_of_ne_nil (Nat.toDigits_ne_nil (b := 10) (n := n))
    have hne : c ≠ a := by
      rintro rfl
      rw [hdigits c (ha ▸ List.mem_cons_self)] at hdigit
      cases hdigit
    rw [skipWord?, hc, literal, ha, List.cons_append, skipChars?, if_neg hne]
  simp only [operandValue?, hskip]
  rw [literal, dropWhile_append_of_stops hdigits hsuffix, takeWhile_append_of_stops hdigits hsuffix,
    if_pos rfl, decimal?_toDigits, Option.bind_some, word?, if_pos h]

/-- A term is read as the exact size of its field, if that fits in a word. -/
theorem termValue?_term {f : Field} (h : f.type.size * f.count < UInt32.size) :
    d.termValue? (d.term f) = some (f.type.size * f.count) := by
  rcases f with ⟨t, name, _ | n⟩
  · obtain ⟨c, r, hc, hne, _⟩ := d.opening_head
    have hskip : skipChar? '(' (d.sizeOf t) = none := by
      rw [sizeOf, hc, List.cons_append, skipChar?, if_neg hne]
    simp only [term, termValue?, hskip, operandValue?_sizeOf, Field.count, Nat.mul_one]
  · have hsplit : ((d.sizeOf t ++ (" * ".toList ++ d.literal n.toNat)).splitOn '*').map trim =
        [d.sizeOf t, d.literal n.toNat] := by
      have hfactors : ∀ l ∈ [d.sizeOf t, d.literal n.toNat], '*' ∉ l ∧ Framed l := by
        simp only [List.forall_mem_cons]
        exact ⟨⟨not_mem_of_isOperandChar (d.isOperandChar_sizeOf t) (by decide), d.framed_sizeOf t⟩,
          ⟨not_mem_of_isOperandChar (d.isOperandChar_literal _) (by decide), d.framed_literal _⟩,
          by simp⟩
      simpa using map_trim_splitOn_intercalate (c := '*') (by decide) blanks_nil (by simp) hfactors
    have hsize : d.multiply? 1 (d.sizeOf t) = some t.size := by
      rw [multiply?, operandValue?_sizeOf, Option.bind_some, Nat.one_mul]
      exact if_pos (Nat.lt_of_le_of_lt t.size_le (by decide))
    have hproduct : d.multiply? t.size (d.literal n.toNat) = some (t.size * n.toNat) := by
      rw [multiply?, d.operandValue?_literal n.toNat_lt_size, Option.bind_some]
      exact if_pos h
    have hterm : d.term ⟨t, name, some n⟩ =
        '(' :: ((d.sizeOf t ++ (" * ".toList ++ d.literal n.toNat)) ++ [')']) := by
      simp only [term, List.append_assoc]
    rw [hterm, termValue?]
    simp only [skipChar?_eq_some_iff.mpr rfl, List.getLast?_concat, if_true, List.dropLast_concat,
      hsplit, List.foldlM_cons, List.foldlM_nil, hsize, hproduct, Option.bind_eq_bind,
      Option.bind_some]
    rfl

/-- Terms are added up, if their sum fits in a word. -/
theorem foldlM_add?_term {fields : List Field} {total : Nat}
    (h : total + totalSize fields < UInt32.size) :
    (fields.map d.term).foldlM d.add? total = some (total + totalSize fields) := by
  induction fields generalizing total with
  | nil => rfl
  | cons f fields ih =>
    rw [totalSize] at h
    have hadd : d.add? total (d.term f) = some (total + f.type.size * f.count) := by
      rw [add?, d.termValue?_term (by omega), Option.bind_some]
      exact if_pos (by omega)
    rw [List.map_cons, List.foldlM_cons, hadd, Option.bind_eq_bind, Option.bind_some,
      ih (by omega), totalSize, Nat.add_assoc]

/-- The expression for fields is read as their exact size, if that fits in a word. -/
theorem value?_of_expression {s : String} {fields : List Field}
    (hs : s.toList = d.expression fields) (hne : fields ≠ [])
    (h : totalSize fields < UInt32.size) : d.value? s = some (totalSize fields) := by
  rw [value?, hs, expression]
  cases fields with
  | nil => exact absurd rfl hne
  | cons f fields =>
    have hterms : ∀ l ∈ (f :: fields).map d.term, '+' ∉ l ∧ Framed l := by
      intro l hl
      obtain ⟨g, _, rfl⟩ := List.mem_map.mp hl
      exact ⟨d.not_mem_term g (by decide) (by decide) (by decide), d.framed_term g⟩
    have hsplit := map_trim_splitOn_intercalate (c := '+') (by decide) blanks_nil (by simp) hterms
    have hoperator : " + ".toList = [' ', '+', ' '] := by decide
    rw [List.nil_append] at hsplit
    rw [List.isEmpty_cons, if_neg Bool.false_ne_true, hoperator, hsplit,
      d.foldlM_add?_term (by rwa [Nat.zero_add]), Nat.zero_add]

/-! ### The expressions of generated code -/

/-- Terms of a dialect make an expression of it. -/
theorem toList_intercalate_terms {zero : String} {termText : Field → String}
    (hzero : zero.toList = d.literal 0) (hterm : ∀ f, (termText f).toList = d.term f)
    (fields : List Field) :
    (if fields.isEmpty then zero else " + ".intercalate (fields.map termText)).toList =
      d.expression fields := by
  have hterms : (fields.map termText).map String.toList = fields.map d.term := by
    rw [List.map_map]
    exact List.map_congr_left fun f _ ↦ hterm f
  unfold expression
  split
  · exact hzero
  · rw [String.toList_intercalate, hterms]

/-- The expression in a C++ header is one of its dialect. -/
theorem toList_cppExpression (fields : List Field) :
    (CppHeader.sizeExpression fields).toList = cpp.expression fields := by
  refine cpp.toList_intercalate_terms rfl (fun f ↦ ?_) fields
  rcases f with ⟨t, name, _ | n⟩
  · simp [CppHeader.sizeTerm, term, sizeOf, cpp]
  · simp [CppHeader.sizeTerm, term, sizeOf, literal, cpp]

/-- The expression in a Rust module is one of its dialect. -/
theorem toList_rustExpression (fields : List Field) :
    (RustModule.sizeExpression fields).toList = rust.expression fields := by
  refine rust.toList_intercalate_terms rfl (fun f ↦ ?_) fields
  rcases f with ⟨t, name, _ | n⟩
  · simp [RustModule.sizeTerm, term, sizeOf, rust]
  · simp [RustModule.sizeTerm, term, sizeOf, literal, rust]

end SizeDialect

end WireSchema
