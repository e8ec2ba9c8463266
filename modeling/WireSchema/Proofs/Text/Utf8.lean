import WireSchema.Text.Utf8

/-!
# The bytes of the pieces of a text

The bytes of a text are those of its characters in order. A character of ASCII is one byte, and no
other character has a byte below 128 in it. Where such a byte stands in a text, its character
stands, and the text can be cut before it and behind it.
-/

namespace WireSchema.Text

/-- The bytes of characters in order. -/
theorem utf8_ofList (s : List Char) : utf8 (String.ofList s) = s.flatMap String.utf8EncodeChar := by
  rw [utf8, String.toUTF8_eq_toByteArray, String.toByteArray_ofList, List.utf8Encode,
    List.toList_data_toByteArray]

/-- The bytes of a character stand first. -/
theorem utf8_ofList_cons (c : Char) (s : List Char) :
    utf8 (String.ofList (c :: s)) = String.utf8EncodeChar c ++ utf8 (String.ofList s) := by
  rw [utf8_ofList, utf8_ofList, List.flatMap_cons]

/-- The bytes of two texts stand behind each other. -/
theorem utf8_ofList_append (s t : List Char) :
    utf8 (String.ofList (s ++ t)) = utf8 (String.ofList s) ++ utf8 (String.ofList t) := by
  rw [utf8_ofList, utf8_ofList, utf8_ofList, List.flatMap_append]

/-- A character of ASCII is one byte. -/
theorem utf8EncodeChar_of_lt {c : Char} (h : c.toNat < 128) :
    String.utf8EncodeChar c = [UInt8.ofNat c.toNat] := by
  have hone : c.val.toNat ≤ 127 := Nat.le_of_lt_succ h
  rw [String.utf8EncodeChar.eq_1, if_pos hone]
  rfl

/-- No other character has a byte of ASCII in it. -/
theorem le_of_mem_utf8EncodeChar {c : Char} (h : 128 ≤ c.toNat) :
    ∀ b ∈ String.utf8EncodeChar c, 128 ≤ b.toNat := by
  have hmore : ¬c.val.toNat ≤ 127 := Nat.not_le.mpr h
  rw [String.utf8EncodeChar.eq_1, if_neg hmore]
  -- every byte is a remainder added to a mark of at least 128
  repeat' split
  all_goals
    simp only [List.mem_cons, List.not_mem_nil, or_false, forall_eq_or_imp, forall_eq,
      UInt8.toNat_ofNat']
    omega

/-- Only a character of ASCII has its byte in it. -/
theorem eq_of_mem_utf8EncodeChar {a c : Char} (ha : a.toNat < 128)
    (h : UInt8.ofNat a.toNat ∈ String.utf8EncodeChar c) : c = a := by
  have hbyte : (UInt8.ofNat a.toNat).toNat = a.toNat :=
    UInt8.toNat_ofNat_of_lt' (Nat.lt_trans ha (by decide))
  rcases Nat.lt_or_ge c.toNat 128 with hlt | hge
  · rw [utf8EncodeChar_of_lt hlt, List.mem_singleton] at h
    have heq := congrArg UInt8.toNat h
    rw [hbyte, UInt8.toNat_ofNat'] at heq
    exact Char.toNat_inj.mp (by omega)
  · have hle := le_of_mem_utf8EncodeChar hge _ h
    omega

/-- Where a byte of ASCII stands among the bytes of a text, its character stands in the text. -/
theorem exists_append_of_getElem?_utf8 {s : List Char} {c : Char} {k : Nat} (hc : c.toNat < 128)
    (h : (utf8 (String.ofList s))[k]? = some (UInt8.ofNat c.toNat)) :
    ∃ before rest, s = before ++ c :: rest ∧ (utf8 (String.ofList before)).length = k := by
  induction s generalizing k with
  | nil =>
    rw [utf8_ofList, List.flatMap_nil, List.getElem?_nil] at h
    cases h
  | cons a s ih =>
    rw [utf8_ofList_cons] at h
    rcases Nat.lt_or_ge k (String.utf8EncodeChar a).length with hin | hbehind
    · -- the byte is one of those of the first character, and its only one
      rw [List.getElem?_append_left hin] at h
      have hac := eq_of_mem_utf8EncodeChar hc (List.mem_of_getElem? h)
      rw [hac, utf8EncodeChar_of_lt hc, List.length_singleton] at hin
      rw [hac, Nat.lt_one_iff.mp hin]
      exact ⟨[], s, rfl, rfl⟩
    · rw [List.getElem?_append_right hbehind] at h
      obtain ⟨before, rest, rfl, hlength⟩ := ih h
      refine ⟨a :: before, rest, rfl, ?_⟩
      rw [utf8_ofList_cons, List.length_append, hlength]
      omega

/-- A text can be cut behind each of its pieces. -/
theorem isValid_length_utf8 (s t : List Char) :
    String.Pos.Raw.IsValid (String.ofList (s ++ t)) ⟨(utf8 (String.ofList s)).length⟩ := by
  rw [String.Pos.Raw.isValid_iff_exists_append]
  exact ⟨String.ofList s, String.ofList t, String.ofList_append, rfl⟩

end WireSchema.Text
