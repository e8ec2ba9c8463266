import WireSchema.Proofs.Schema.Clash
import WireSchema.Schema.Check

/-!
# Checking fields

The payload is summed in words. A sum is a word exactly if the exact size of the fields is one, so
the check of the fields passes exactly if the exact size keeps to the limit. The main statements say
what is answered of any fields: that there are none, else the first one whose name came before,
else their exact size if it is past the limit. The check has no verdict only on fields whose size
is no word, and fewer than 2^29 fields never have such a size.
-/

namespace WireSchema

/-- The word of a field is its exact size. -/
theorem Field.toNat_wireWord (f : Field) : f.wireWord.toNat = f.type.size * f.count := by
  have hs := f.type.size_le
  have hsize : (UInt64.ofNat f.type.size).toNat = f.type.size := by
    apply UInt64.toNat_ofNat_of_lt'
    simp only [UInt64.size]
    omega
  have hmul := Nat.mul_le_mul hs (Nat.le_of_lt f.count_lt)
  have hlt : f.type.size * f.count < UInt64.size := Nat.lt_of_le_of_lt hmul (by decide)
  rw [wireWord, UInt64.toNat_mul, hsize]
  rcases f with ⟨type, name, _ | n⟩
  · exact Nat.mod_eq_of_lt hlt
  · exact Nat.mod_eq_of_lt hlt

/-- Two words are added exactly if their exact sum is a word. -/
theorem addWords?_eq_some_iff {a b sum : UInt64} :
    addWords? a b = some sum ↔ a.toNat + b.toNat = sum.toNat := by
  have hsum := sum.toNat_lt_size
  unfold addWords?
  constructor
  · intro h
    split at h
    · next hlt =>
      cases h
      rw [UInt64.toNat_add]
      simp only [UInt64.size] at hlt
      omega
    · cases h
  · intro h
    rw [if_pos (by omega)]
    apply congrArg some
    apply UInt64.toNat_inj.mp
    rw [UInt64.toNat_add, h]
    simp only [UInt64.size] at hsum
    omega

private theorem foldlM_addWords?_eq_some_iff {fields : List Field} {total size : UInt64} :
    fields.foldlM (fun total f ↦ addWords? total f.wireWord) total = some size ↔
      total.toNat + totalSize fields = size.toNat := by
  induction fields generalizing total with
  | nil => simp [totalSize, ← UInt64.toNat_inj]
  | cons f fields ih =>
    simp only [List.foldlM_cons, Option.bind_eq_bind, Option.bind_eq_some_iff, ih,
      addWords?_eq_some_iff, Field.toNat_wireWord, totalSize]
    constructor
    · rintro ⟨sum, hsum, h⟩
      omega
    · intro h
      have hlt := size.toNat_lt_size
      have hsum : (UInt64.ofNat (total.toNat + f.type.size * f.count)).toNat =
          total.toNat + f.type.size * f.count := UInt64.toNat_ofNat_of_lt' (by omega)
      exact ⟨_, hsum.symm, by omega⟩

/-- The payload is a word exactly if the exact size of the fields is that word. -/
theorem payloadWord?_eq_some_iff {fields : List Field} {size : UInt64} :
    payloadWord? fields = some size ↔ totalSize fields = size.toNat := by
  unfold payloadWord?
  rw [foldlM_addWords?_eq_some_iff, UInt64.toNat_zero, Nat.zero_add]

/-- The payload is no word exactly if the exact size of the fields is past all of them. -/
theorem payloadWord?_eq_none_iff {fields : List Field} :
    payloadWord? fields = none ↔ UInt64.size ≤ totalSize fields := by
  constructor
  · intro hnone
    by_contra hlt
    have hexact := UInt64.toNat_ofNat_of_lt' (Nat.lt_of_not_le hlt)
    rw [payloadWord?_eq_some_iff.mpr hexact.symm] at hnone
    cases hnone
  · intro hlarge
    cases hword : payloadWord? fields with
    | none => rfl
    | some size =>
      have hsize := payloadWord?_eq_some_iff.mp hword
      have hlt := size.toNat_lt_size
      omega

/-! ### The first fault -/

/-- What is wrong with the fields of a message. A fault is only one if there is none before it in
this order. -/
inductive FieldsFault (structName : String) : List Field → SchemaError → Prop
  | empty : FieldsFault structName [] (.noFields structName)
  | repeated {before after : List Field} {f : Field} (hname : f.name ∈ before.map Field.name)
      (hfirst : (before.map Field.name).Nodup) :
      FieldsFault structName (before ++ f :: after) (.duplicateField f.name)
  | large {fields : List Field} (hne : fields ≠ []) (hnodup : (fields.map Field.name).Nodup)
      (hlarge : 4294967295 < totalSize fields) :
      FieldsFault structName fields (.payloadTooLarge structName (totalSize fields) 4294967295)

namespace FieldsCheck

/-- The first field whose name came before is refused. -/
theorem ofFields_of_repeated (structName : String) {before after : List Field} {f : Field}
    (hname : f.name ∈ before.map Field.name) (hfirst : (before.map Field.name).Nodup) :
    ofFields structName (before ++ f :: after) = .refuses (.duplicateField f.name) := by
  obtain ⟨x, hx, hkey⟩ := List.mem_map.mp hname
  obtain ⟨front, between, rfl⟩ := List.append_of_mem hx
  have hclash : firstClash? Field.name (front ++ x :: between ++ f :: after) = some (x, f) :=
    firstClash?_eq_some_iff.mpr ⟨front, between, after, by simp, hkey, hfirst⟩
  unfold ofFields
  rw [if_neg (by simp), hclash]

/-- Fields of different names are checked for their sum only. -/
theorem ofFields_of_nodup (structName : String) {fields : List Field} (hne : fields ≠ [])
    (hnodup : (fields.map Field.name).Nodup) :
    ofFields structName fields =
      if totalSize fields ≤ 4294967295 then .passes
      else if totalSize fields < UInt64.size then
        .refuses (.payloadTooLarge structName (totalSize fields) 4294967295)
      else .overflows := by
  have hlimit : payloadLimit.toNat = 4294967295 := rfl
  unfold ofFields
  rw [if_neg (by simpa using hne), firstClash?_eq_none_iff.mpr hnodup]
  cases hword : payloadWord? fields with
  | none =>
    have hlarge := payloadWord?_eq_none_iff.mp hword
    have hsize : UInt64.size = 18446744073709551616 := rfl
    rw [if_neg (by omega), if_neg (by omega)]
  | some size =>
    have hsize := payloadWord?_eq_some_iff.mp hword
    have hlt : totalSize fields < UInt64.size := by
      rw [hsize]
      exact size.toNat_lt_size
    simp only [UInt64.lt_iff_toNat_lt, hlimit, ← hsize, if_pos hlt]
    by_cases hle : totalSize fields ≤ 4294967295
    · rw [if_pos hle, if_neg (by omega)]
    · rw [if_neg hle, if_pos (by omega)]

end FieldsCheck

/-- The first field whose name came before is the answer. -/
theorem checkFields_of_repeated (structName : String) {before after : List Field} {f : Field}
    (hname : f.name ∈ before.map Field.name) (hfirst : (before.map Field.name).Nodup) :
    checkFields structName (before ++ f :: after) = .error (.duplicateField f.name) := by
  rw [checkFields, FieldsCheck.ofFields_of_repeated structName hname hfirst]

/-- Fields of different names are answered by their exact size only. -/
theorem checkFields_of_nodup (structName : String) {fields : List Field} (hne : fields ≠ [])
    (hnodup : (fields.map Field.name).Nodup) :
    checkFields structName fields =
      if totalSize fields ≤ 4294967295 then .ok ()
      else .error (.payloadTooLarge structName (totalSize fields) 4294967295) := by
  have hlimit : payloadLimit.toNat = 4294967295 := rfl
  rw [checkFields, FieldsCheck.ofFields_of_nodup structName hne hnodup]
  split_ifs
  · rfl
  · rfl
  · rw [hlimit]

/-- Fields of which two have one name are taken apart at the first one whose name came before. -/
theorem exists_repeated_of_not_nodup {fields : List Field} (h : ¬(fields.map Field.name).Nodup) :
    ∃ before f after, fields = before ++ f :: after ∧ f.name ∈ before.map Field.name ∧
      (before.map Field.name).Nodup := by
  obtain ⟨⟨x, y⟩, hclash⟩ := Option.ne_none_iff_exists'.mp (mt firstClash?_eq_none_iff.mp h)
  obtain ⟨before, between, after, rfl, hname, hnodup⟩ := firstClash?_eq_some_iff.mp hclash
  exact ⟨before ++ x :: between, y, after, by simp, by simp [← hname], hnodup⟩

/-- What is answered of fields is their fault, or nothing if they have none. -/
theorem checkFields_cases (structName : String) (fields : List Field) :
    (∃ e, FieldsFault structName fields e ∧ checkFields structName fields = .error e) ∨
      fields ≠ [] ∧ (fields.map Field.name).Nodup ∧ totalSize fields ≤ 4294967295 ∧
        checkFields structName fields = .ok () := by
  by_cases hne : fields = []
  · subst hne
    exact .inl ⟨_, .empty, rfl⟩
  by_cases hnodup : (fields.map Field.name).Nodup
  · have hcheck := checkFields_of_nodup structName hne hnodup
    by_cases hle : totalSize fields ≤ 4294967295
    · rw [if_pos hle] at hcheck
      exact .inr ⟨hne, hnodup, hle, hcheck⟩
    · rw [if_neg hle] at hcheck
      exact .inl ⟨_, .large hne hnodup (Nat.lt_of_not_le hle), hcheck⟩
  · obtain ⟨before, f, after, rfl, hname, hfirst⟩ := exists_repeated_of_not_nodup hnodup
    exact .inl ⟨_, .repeated hname hfirst, checkFields_of_repeated structName hname hfirst⟩

/-- Fields are refused exactly for their fault. -/
theorem checkFields_eq_error_iff {structName : String} {fields : List Field} {e : SchemaError} :
    checkFields structName fields = .error e ↔ FieldsFault structName fields e := by
  constructor
  · intro h
    rcases checkFields_cases structName fields with ⟨e', hfault, he'⟩ | ⟨_, _, _, hok⟩
    · cases he'.symm.trans h
      exact hfault
    · cases hok.symm.trans h
  · intro h
    cases h with
    | empty => rfl
    | repeated hname hfirst => exact checkFields_of_repeated structName hname hfirst
    | large hne hnodup hlarge =>
      rw [checkFields_of_nodup structName hne hnodup, if_neg (Nat.not_le.mpr hlarge)]

/-- The fields pass exactly if there is one, no two have one name, and they keep to the limit. -/
theorem checkFields_eq_ok_iff {structName : String} {fields : List Field} :
    checkFields structName fields = .ok () ↔
      fields ≠ [] ∧ (fields.map Field.name).Nodup ∧ totalSize fields ≤ payloadLimit.toNat := by
  have hlimit : payloadLimit.toNat = 4294967295 := rfl
  rw [hlimit]
  constructor
  · intro h
    rcases checkFields_cases structName fields with ⟨e, _, he⟩ | ⟨hne, hnodup, hle, _⟩
    · cases he.symm.trans h
    · exact ⟨hne, hnodup, hle⟩
  · rintro ⟨hne, hnodup, hle⟩
    rw [checkFields_of_nodup structName hne hnodup, if_pos hle]

/-! ### Sums that are words -/

/-- A field has fewer than 2^35 bytes. -/
theorem totalSize_le_length_mul (fields : List Field) :
    totalSize fields ≤ fields.length * 34359738360 := by
  induction fields with
  | nil => exact Nat.le_refl 0
  | cons f fields ih =>
    have hcount : f.count ≤ 4294967295 := Nat.le_of_lt_succ f.count_lt
    have hfield := Nat.mul_le_mul f.type.size_le hcount
    rw [totalSize, List.length_cons]
    omega

/-- The size of fewer than 2^29 fields is a word. -/
theorem exists_payloadWord? {fields : List Field} (h : fields.length < 536870912) :
    ∃ w, payloadWord? fields = some w ∧ w.toNat = totalSize fields := by
  have hle := totalSize_le_length_mul fields
  have hword : (UInt64.ofNat (totalSize fields)).toNat = totalSize fields := by
    apply UInt64.toNat_ofNat_of_lt'
    simp only [UInt64.size]
    omega
  exact ⟨_, payloadWord?_eq_some_iff.mpr hword.symm, hword⟩

namespace FieldsCheck

/-- There is no verdict exactly on fields without another fault whose exact size is no word. -/
theorem ofFields_eq_overflows_iff {structName : String} {fields : List Field} :
    ofFields structName fields = .overflows ↔
      fields ≠ [] ∧ (fields.map Field.name).Nodup ∧ UInt64.size ≤ totalSize fields := by
  by_cases hne : fields = []
  · subst hne
    simp [ofFields]
  by_cases hnodup : (fields.map Field.name).Nodup
  · have hsize : UInt64.size = 18446744073709551616 := rfl
    rw [ofFields_of_nodup structName hne hnodup]
    split_ifs <;> simp [hne, hnodup] <;> omega
  · refine iff_of_false ?_ fun h ↦ hnodup h.2.1
    obtain ⟨before, f, after, rfl, hname, hfirst⟩ := exists_repeated_of_not_nodup hnodup
    rw [ofFields_of_repeated structName hname hfirst]
    nofun

/-- Fewer than 2^29 fields have a verdict, and it is what is answered. -/
theorem ofFields_of_few {fields : List Field} (h : fields.length < 536870912)
    (structName : String) :
    (ofFields structName fields = .passes ∧ checkFields structName fields = .ok ()) ∨
      ∃ e, ofFields structName fields = .refuses e ∧ checkFields structName fields = .error e := by
  unfold checkFields
  cases hcheck : ofFields structName fields with
  | passes => exact .inl ⟨rfl, rfl⟩
  | refuses e => exact .inr ⟨e, rfl, rfl⟩
  | overflows =>
    obtain ⟨_, _, hlarge⟩ := ofFields_eq_overflows_iff.mp hcheck
    obtain ⟨w, hw, _⟩ := exists_payloadWord? h
    rw [payloadWord?_eq_none_iff.mpr hlarge] at hw
    cases hw

end FieldsCheck

/-- Fewer than 2^29 fields are refused for having none, else for the first name that came before,
else for their exact size if that is past the limit, and pass otherwise. All products and sums on
the way to the size are exact. -/
theorem checkFields_finds_first_fault {fields : List Field} (h : fields.length < 536870912)
    (structName : String) :
    (checkFields structName fields = .error (.noFields structName) ↔ fields = []) ∧
    ((∃ name, checkFields structName fields = .error (.duplicateField name)) ↔
      ¬(fields.map Field.name).Nodup) ∧
    (∀ name, checkFields structName fields = .error (.duplicateField name) ↔
      ∃ before f after, fields = before ++ f :: after ∧ f.name = name ∧
        f.name ∈ before.map Field.name ∧ (before.map Field.name).Nodup) ∧
    (∀ size limit, checkFields structName fields = .error (.payloadTooLarge structName size limit) ↔
      fields ≠ [] ∧ (fields.map Field.name).Nodup ∧ 4294967295 < totalSize fields ∧
        size = totalSize fields ∧ limit = 4294967295) ∧
    (checkFields structName fields = .ok () ↔
      fields ≠ [] ∧ (fields.map Field.name).Nodup ∧ totalSize fields ≤ 4294967295) ∧
    (∀ f ∈ fields, f.wireWord.toNat = f.type.size * f.count) ∧
    ∀ k, ∃ w, payloadWord? (fields.take k) = some w ∧ w.toNat = totalSize (fields.take k) := by
  refine ⟨?_, ?_, fun name ↦ ?_, fun size limit ↦ ?_, checkFields_eq_ok_iff,
    fun f _ ↦ f.toNat_wireWord, fun k ↦ ?_⟩
  · rw [checkFields_eq_error_iff]
    constructor
    · intro hfault
      cases hfault
      rfl
    · rintro rfl
      exact .empty
  · constructor
    · rintro ⟨name, hcheck⟩ hnodup
      cases checkFields_eq_error_iff.mp hcheck with
      | repeated hname _ =>
        rw [List.map_append, List.map_cons] at hnodup
        exact (List.nodup_append.mp hnodup).2.2 _ hname _ List.mem_cons_self rfl
    · intro hclash
      obtain ⟨before, f, after, rfl, hname, hfirst⟩ := exists_repeated_of_not_nodup hclash
      exact ⟨f.name, checkFields_of_repeated structName hname hfirst⟩
  · rw [checkFields_eq_error_iff]
    constructor
    · intro hfault
      cases hfault with
      | repeated hname hfirst => exact ⟨_, _, _, rfl, rfl, hname, hfirst⟩
    · rintro ⟨before, f, after, rfl, rfl, hname, hfirst⟩
      exact .repeated hname hfirst
  · rw [checkFields_eq_error_iff]
    constructor
    · intro hfault
      cases hfault with
      | large hne hnodup hlarge => exact ⟨hne, hnodup, hlarge, rfl, rfl⟩
    · rintro ⟨hne, hnodup, hlarge, rfl, rfl⟩
      exact .large hne hnodup hlarge
  · refine exists_payloadWord? (Nat.lt_of_le_of_lt ?_ h)
    rw [List.length_take]
    exact Nat.min_le_right _ _

/-- Two fields that keep to the limit each, and do not together. -/
theorem checkFields_of_two_halves :
    ([⟨.uint8, "a", some 3000000000⟩, ⟨.uint8, "b", some 3000000000⟩] : List Field).length <
        536870912 ∧
      checkFields "Sum" [⟨.uint8, "a", some 3000000000⟩, ⟨.uint8, "b", some 3000000000⟩] =
        .error (.payloadTooLarge "Sum" 6000000000 4294967295) := by
  have hfew : ([⟨.uint8, "a", some 3000000000⟩, ⟨.uint8, "b", some 3000000000⟩] :
      List Field).length < 536870912 := by decide
  obtain ⟨_, _, _, hlarge, _⟩ := checkFields_finds_first_fault hfew "Sum"
  exact ⟨hfew, (hlarge _ _).mpr ⟨by decide, by decide, by decide, by decide, rfl⟩⟩

end WireSchema
