import WireSchema.Proofs.Schema.Declarations
import WireSchema.Proofs.Text.Decimal

/-!
# Array lengths

What comes of a length text depends on its exact value only, however many digits it has: a field if
the value is a positive word of 32 bits, and else an error that carries the text as it is written.
A minus sign is refused whatever number follows it.
-/

namespace WireSchema

open Text

namespace Declaration

/-- Zeros in front of digits are digits. -/
theorem isDigit_of_mem_zeros_append {digits : List Char} (hd : ∀ c ∈ digits, c.isDigit = true)
    (zeros : Nat) : ∀ c ∈ List.replicate zeros '0' ++ digits, c.isDigit = true := by
  rw [List.forall_mem_append]
  exact ⟨fun c hc ↦ List.eq_of_mem_replicate hc ▸ rfl, hd⟩

section Array

variable {typeName : String} {type : ScalarType}
  (htype : ScalarType.ofName? typeName = some type) (name : String)
include htype

/-- With a known type an array is a field exactly if its length is accepted. -/
theorem toField_array (length : String) :
    toField ⟨typeName, name, some length⟩ =
      (checkLength name length).map fun n ↦ ⟨type, name, some n⟩ := by
  simp only [toField, htype]
  cases checkLength name length with
  | error e => rfl
  | ok n => rfl

/-- An array is answered by what its digits mean, without the zeros in front: zero, a word, or more
than any word. -/
theorem toField_cases {digits : List Char} (hne : digits ≠ [])
    (hd : ∀ c ∈ digits, c.isDigit = true) (zeros : Nat) :
    let text := String.ofList (List.replicate zeros '0' ++ digits)
    (decimalValue digits = 0 ∧
        toField ⟨typeName, name, some text⟩ = .error (.nonPositiveLength name text)) ∨
      (∃ n : UInt32, n ≠ 0 ∧ n.toNat = decimalValue digits ∧
        toField ⟨typeName, name, some text⟩ = .ok ⟨type, name, some n⟩) ∨
      (UInt32.size ≤ decimalValue digits ∧
        toField ⟨typeName, name, some text⟩ = .error (.lengthOutOfRange name text)) := by
  intro text
  have hanswer := toField_array htype name text
  rw [checkLength_of_digits (List.append_ne_nil_of_right_ne_nil _ hne)
    (isDigit_of_mem_zeros_append hd zeros), ofDigitChars_eq_decimalValue,
    decimalValue_zeros_append] at hanswer
  by_cases hzero : decimalValue digits = 0
  · rw [if_pos hzero] at hanswer
    exact .inl ⟨hzero, hanswer⟩
  rw [if_neg hzero] at hanswer
  by_cases hword : decimalValue digits < UInt32.size
  · rw [if_pos hword] at hanswer
    have hn := UInt32.toNat_ofNat_of_lt' hword
    refine .inr (.inl ⟨_, fun h0 ↦ hzero ?_, hn, hanswer⟩)
    rw [← hn, h0, UInt32.toNat_zero]
  · rw [if_neg hword] at hanswer
    exact .inr (.inr ⟨Nat.le_of_not_lt hword, hanswer⟩)

/-- An array of a known type is a field with the length that its digits mean, if that is a positive
word of 32 bits. It is refused for a length that is not positive if the digits mean zero, and for
one out of range if they mean 2^32 or more. Zeros in front change nothing of this. With a minus sign
it is refused for a length that is not positive, whatever the digits mean. The word is also the one
that is read digit by digit, up to the first product or sum that is no word. -/
theorem toField_of_digits {digits : List Char} (hne : digits ≠ [])
    (hd : ∀ c ∈ digits, c.isDigit = true) (zeros : Nat) :
    let text := List.replicate zeros '0' ++ digits
    let answer (length : List Char) := toField ⟨typeName, name, some (String.ofList length)⟩
    ((∃ n : UInt32, answer text = .ok ⟨type, name, some n⟩ ∧ n.toNat = decimalValue digits) ↔
      1 ≤ decimalValue digits ∧ decimalValue digits ≤ 4294967295) ∧
    (answer text = .error (.nonPositiveLength name (String.ofList text)) ↔
      decimalValue digits = 0) ∧
    (answer text = .error (.lengthOutOfRange name (String.ofList text)) ↔
      4294967296 ≤ decimalValue digits) ∧
    answer ('-' :: text) = .error (.nonPositiveLength name (String.ofList ('-' :: text))) ∧
    word32? text = readWord? text := by
  intro text answer
  have hsize : UInt32.size = 4294967296 := rfl
  have hminus : answer ('-' :: text) = _ := toField_array htype name (String.ofList ('-' :: text))
  rw [checkLength_of_minus] at hminus
  have hread : readWord? text = word32? text :=
    readWord?_eq_word32? (List.append_ne_nil_of_right_ne_nil _ hne)
      (isDigit_of_mem_zeros_append hd zeros)
  rw [← and_assoc, ← and_assoc, ← and_assoc]
  refine ⟨⟨?_, hminus⟩, hread.symm⟩
  have hcases := toField_cases htype name hne hd zeros
  change (_ ∧ answer text = _) ∨ (∃ n, _ ∧ _ ∧ answer text = _) ∨ (_ ∧ answer text = _) at hcases
  rcases hcases with ⟨hzero, hanswer⟩ | ⟨n, hpos, hn, hanswer⟩ | ⟨hlarge, hanswer⟩
  · rw [hanswer, hzero]
    refine ⟨⟨⟨?_, fun h ↦ ?_⟩, fun _ ↦ rfl, fun _ ↦ rfl⟩, nofun, fun h ↦ ?_⟩
    · rintro ⟨n, h, _⟩
      cases h
    · omega
    · omega
  · have hlt := n.toNat_lt_size
    have hne : n.toNat ≠ 0 := fun h ↦ hpos (UInt32.toNat_inj.mp h)
    rw [hanswer, ← hn]
    refine ⟨⟨⟨fun _ ↦ ?_, fun _ ↦ ⟨n, rfl, rfl⟩⟩, nofun, fun h ↦ absurd h hne⟩, nofun, fun h ↦ ?_⟩
    · omega
    · omega
  · rw [hanswer]
    refine ⟨⟨⟨?_, fun h ↦ ?_⟩, nofun, fun h ↦ ?_⟩, fun _ ↦ hsize ▸ hlarge, fun _ ↦ rfl⟩
    · rintro ⟨n, h, _⟩
      cases h
    · omega
    · omega

end Array

/-- A length that is past all words with its last digit only, behind zeros. -/
theorem toField_past_words :
    ScalarType.ofName? "uint16_t" = some .uint16 ∧ "4294967296".toList ≠ [] ∧
      (∀ c ∈ "4294967296".toList, c.isDigit = true) ∧
      toField ⟨"uint16_t", "a", some "0004294967296"⟩ =
        .error (.lengthOutOfRange "a" "0004294967296") ∧
      toField ⟨"uint16_t", "a", some "-0004294967296"⟩ =
        .error (.nonPositiveLength "a" "-0004294967296") := by
  have htype : ScalarType.ofName? "uint16_t" = some .uint16 := rfl
  have hne : "4294967296".toList ≠ [] := by decide
  have hdigits : ∀ c ∈ "4294967296".toList, c.isDigit = true := List.all_eq_true.mp (by decide)
  have hvalue : 4294967296 ≤ decimalValue "4294967296".toList := by decide
  obtain ⟨_, _, hlarge, hminus, _⟩ := toField_of_digits htype "a" hne hdigits 3
  exact ⟨htype, hne, hdigits, hlarge.mpr hvalue, hminus⟩

end Declaration

end WireSchema
