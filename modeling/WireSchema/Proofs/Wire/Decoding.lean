import WireSchema.Proofs.Wire.Layout

/-!
# Decoding records

A slot is at fault if its bytes are not all there, or if it is for a boolean and its byte is
neither zero nor one. Decoding a record goes through its slots in order up to the first at fault,
whatever fields the scalars belong to. The main statement says which error that gives, and which
scalars are new and which are old.
-/

namespace WireSchema

open Layout

namespace Slot

/-- The first byte at a slot. -/
def byte (data : List UInt8) (s : Slot) : UInt8 := data.getD s.offset 0

/-- What is wrong with the bytes at a slot, if anything is. -/
def fault? (data : List UInt8) (s : Slot) : Option WireError :=
  if data.length < s.offset + s.type.size then
    some (.underflow s.type.size (data.length - s.offset))
  else if s.type = .bool ∧ s.byte data ≠ 0 ∧ s.byte data ≠ 1 then some (.invalidBool (s.byte data))
  else none

/-- A slot is not at fault exactly if its bytes are there and a boolean has one of its own. -/
theorem fault?_eq_none_iff {data : List UInt8} {s : Slot} :
    s.fault? data = none ↔
      s.offset + s.type.size ≤ data.length ∧
        (s.type = .bool → s.byte data = 0 ∨ s.byte data = 1) := by
  unfold fault?
  by_cases hlt : data.length < s.offset + s.type.size
  · simp only [if_pos hlt, reduceCtorEq, false_iff, not_and]
    omega
  · have hfit : s.offset + s.type.size ≤ data.length := Nat.not_lt.mp hlt
    rw [if_neg hlt]
    by_cases hb : s.type = .bool ∧ s.byte data ≠ 0 ∧ s.byte data ≠ 1
    · obtain ⟨ht, hzero, hone⟩ := hb
      simp [ht, hzero, hone]
    · rw [if_neg hb]
      refine iff_of_true rfl ⟨hfit, fun ht ↦ ?_⟩
      by_cases hzero : s.byte data = 0
      · exact .inl hzero
      · by_cases hone : s.byte data = 1
        · exact .inr hone
        · exact absurd ⟨ht, hzero, hone⟩ hb

end Slot

/-! ### One scalar -/

namespace ScalarType

/-- The byte of a boolean is zero or one. -/
theorem decode_bool (b : UInt8) :
    bool.decode [b] =
      if b = 0 then .ok false else if b = 1 then .ok true else .error (.invalidBool b) := by
  have hd : BigEndian.decode [b] = b.toNat := by
    simp [BigEndian.decode]
  have hb : b = UInt8.ofNat b.toNat := (UInt8.ofNat_toNat).symm
  have hlt := b.toNat_lt_size
  rw [decode, hd]
  generalize b.toNat = n at hb hlt
  subst hb
  rcases n with _ | _ | n
  · rfl
  · rfl
  · have hzero : UInt8.ofNat (n + 1 + 1) ≠ 0 := by
      intro h
      have hn := congrArg UInt8.toNat h
      rw [UInt8.toNat_ofNat_of_lt' hlt] at hn
      cases hn
    have hone : UInt8.ofNat (n + 1 + 1) ≠ 1 := by
      intro h
      have hn := congrArg UInt8.toNat h
      rw [UInt8.toNat_ofNat_of_lt' hlt] at hn
      cases hn
    rw [if_neg hzero, if_neg hone]
    rfl

/-- Any bytes can be read as a value of another type. -/
theorem exists_decode {t : ScalarType} (ht : t ≠ bool) (bytes : List UInt8) :
    ∃ v, t.decode bytes = .ok v := by
  cases t
  case bool => exact absurd rfl ht
  all_goals exact ⟨_, rfl⟩

end ScalarType

namespace Slot

/-- The bytes at a slot that is there are as many as its type has. -/
theorem length_bytes {data : List UInt8} {s : Slot} (h : s.offset + s.type.size ≤ data.length) :
    (s.bytes data).length = s.type.size := by
  rw [bytes, List.length_take, List.length_drop]
  omega

/-- The bytes of a boolean are its first byte. -/
theorem bytes_of_bool {data : List UInt8} {s : Slot} (hs : s.type = .bool)
    (h : s.offset + s.type.size ≤ data.length) : s.bytes data = [s.byte data] := by
  have hlt : s.offset < data.length := by
    have hp := s.type.size_pos
    omega
  rw [bytes, byte, hs, List.drop_eq_getElem_cons hlt, List.getD_eq_getElem?_getD,
    List.getElem?_eq_getElem hlt]
  rfl

/-- Reading at a slot at fault gives the fault. -/
theorem read_of_fault {data : List UInt8} {s : Slot} {e : WireError} (h : s.fault? data = some e) :
    Reader.read ⟨data, s.offset⟩ s.type = (.error e, ⟨data, s.offset⟩) := by
  rcases s with ⟨t, offset⟩
  have hp := t.size_pos
  unfold fault? at h
  split at h
  · next hlt =>
    cases h
    have hif : (Reader.mk data offset).remaining < t.size := by
      simp only [Reader.remaining] at hlt ⊢
      omega
    exact if_pos hif
  · next hle =>
    have hfit : offset + t.size ≤ data.length := Nat.not_lt.mp hle
    have hif : ¬(Reader.mk data offset).remaining < t.size := by
      simp only [Reader.remaining]
      omega
    split at h
    · next hb =>
      obtain ⟨ht, hzero, hone⟩ := hb
      change t = .bool at ht
      subst ht
      cases h
      have hbytes : (data.drop offset).take ScalarType.bool.size = [byte data ⟨.bool, offset⟩] :=
        bytes_of_bool (s := ⟨.bool, offset⟩) rfl hfit
      change Reader.read ⟨data, offset⟩ .bool = (.error (.invalidBool (byte data _)), _)
      rw [Reader.read, if_neg hif]
      simp only [hbytes, ScalarType.decode_bool, if_neg hzero, if_neg hone]
    · cases h

/-- Reading at a slot that is not at fault gives the scalar with its bytes. -/
theorem exists_read {data : List UInt8} {s : Slot} (h : s.fault? data = none) :
    ∃ v, Reader.read ⟨data, s.offset⟩ s.type = (.ok v, ⟨data, s.offset + s.type.size⟩) ∧
      s.type.encode v = s.bytes data := by
  obtain ⟨hfit, hbool⟩ := fault?_eq_none_iff.mp h
  rcases s with ⟨t, offset⟩
  simp only at hfit hbool
  have hp := t.size_pos
  have hif : ¬(Reader.mk data offset).remaining < t.size := by
    simp only [Reader.remaining]
    omega
  have hvalue : ∃ v, t.decode (bytes data ⟨t, offset⟩) = .ok v := by
    by_cases ht : t = .bool
    · subst ht
      rw [bytes_of_bool rfl hfit, ScalarType.decode_bool]
      rcases hbool rfl with hzero | hone
      · exact ⟨false, by rw [if_pos hzero]⟩
      · exact ⟨true, by rw [hone, if_neg (by decide), if_pos rfl]⟩
    · exact ScalarType.exists_decode ht _
  obtain ⟨v, hv⟩ := hvalue
  refine ⟨v, ?_, ScalarType.encode_of_decode (length_bytes hfit) hv⟩
  have hd : t.decode ((data.drop offset).take t.size) = .ok v := hv
  change Reader.read ⟨data, offset⟩ t = (.ok v, ⟨data, offset + t.size⟩)
  rw [Reader.read, if_neg hif]
  simp only [hd]

end Slot

/-! ### Scalars in a row -/

/-- What comes of reading scalars: those that are held now, and the reader after them. -/
structure ScalarsRead where
  result : Except WireError Unit
  scalars : List Scalar
  reader : Reader

namespace Reader

/-- Reads scalars in order, each into the place of an old one, up to the first that is refused. -/
def readScalars (r : Reader) : List Scalar → ScalarsRead
  | [] => ⟨.ok (), [], r⟩
  | old :: olds =>
    match r.read old.type with
    | (.error e, r') => ⟨.error e, old :: olds, r'⟩
    | (.ok v, r') =>
      let rest := r'.readScalars olds
      ⟨rest.result, ⟨old.type, v⟩ :: rest.scalars, rest.reader⟩

/-- The second of two rows is read if nothing of the first is refused. -/
theorem readScalars_append (r : Reader) (xs ys : List Scalar) :
    r.readScalars (xs ++ ys) =
      match (r.readScalars xs).result with
      | .error e => ⟨.error e, (r.readScalars xs).scalars ++ ys, (r.readScalars xs).reader⟩
      | .ok () =>
        let rest := (r.readScalars xs).reader.readScalars ys
        ⟨rest.result, (r.readScalars xs).scalars ++ rest.scalars, rest.reader⟩ := by
  induction xs generalizing r with
  | nil => rfl
  | cons x xs ih =>
    simp only [List.cons_append, readScalars]
    split
    · rfl
    · next v r' hr =>
      rw [ih r']
      cases (r'.readScalars xs).result <;> rfl

/-- An array is read as its scalars. -/
theorem readScalars_map_mk (r : Reader) (t : ScalarType) (olds : List t.Value) :
    r.readScalars (olds.map (Scalar.mk t)) =
      ⟨(r.readArray t olds).result, (r.readArray t olds).values.map (Scalar.mk t),
        (r.readArray t olds).reader⟩ := by
  induction olds generalizing r with
  | nil => rfl
  | cons old olds ih =>
    cases hr : r.read t with
    | mk result r' =>
      cases result with
      | error e => simp only [List.map_cons, readScalars, readArray, hr]
      | ok v => simp only [List.map_cons, readScalars, readArray, hr, ih]

/-- A field is read as its scalars. -/
theorem readScalars_field (r : Reader) (f : Field) (old : f.Value) :
    r.readScalars (f.scalars old) =
      ⟨(f.read r old).result, f.scalars (f.read r old).value, (f.read r old).reader⟩ := by
  rcases f with ⟨t, name, _ | n⟩
  · cases hr : r.read t with
    | mk result r' => cases result <;> simp only [Field.scalars, readScalars, Field.read, hr]
  · simp only [Field.scalars, Field.read]
    rw [readScalars_map_mk]
    rfl

/-- A record is read as its scalars. -/
theorem readScalars_record (r : Reader) {fs : List Field} (old : Record fs) :
    r.readScalars old.scalars =
      ⟨(old.read r).result, (old.read r).record.scalars, (old.read r).reader⟩ := by
  induction old generalizing r with
  | nil => rfl
  | @cons f fs value rest ih =>
    rw [Record.scalars, readScalars_append, readScalars_field]
    cases hr : (f.read r value).result with
    | error e => simp only [Record.read, hr, Record.scalars]
    | ok _ => simp only [Record.read, hr, Record.scalars, ih]

/-- Reading stops at a slot at fault. -/
theorem readScalars_cons_of_fault {data : List UInt8} {offset : Nat} {old : Scalar} {e : WireError}
    (h : Slot.fault? data ⟨old.type, offset⟩ = some e) (olds : List Scalar) :
    readScalars ⟨data, offset⟩ (old :: olds) = ⟨.error e, old :: olds, ⟨data, offset⟩⟩ := by
  have hr : read ⟨data, offset⟩ old.type = (.error e, ⟨data, offset⟩) := Slot.read_of_fault h
  simp only [readScalars, hr]

/-- Reading goes on behind a slot that is not at fault. -/
theorem exists_readScalars_cons {data : List UInt8} {offset : Nat} {old : Scalar}
    (h : Slot.fault? data ⟨old.type, offset⟩ = none) (olds : List Scalar) :
    ∃ new : Scalar, new.type = old.type ∧ new.bytes = Slot.bytes data ⟨old.type, offset⟩ ∧
      readScalars ⟨data, offset⟩ (old :: olds) =
        ⟨(readScalars ⟨data, offset + old.type.size⟩ olds).result,
          new :: (readScalars ⟨data, offset + old.type.size⟩ olds).scalars,
          (readScalars ⟨data, offset + old.type.size⟩ olds).reader⟩ := by
  obtain ⟨v, hr, hv⟩ := Slot.exists_read h
  simp only at hr
  refine ⟨⟨old.type, v⟩, rfl, hv, ?_⟩
  simp only [readScalars, hr]

/-- Reading gives the scalars at the slots before the first at fault, then the old ones, and the
fault; without one it ends behind the last slot. -/
theorem readScalars_place (data : List UInt8) (offset : Nat) (olds : List Scalar) :
    (∃ news, AreAt data ((place offset (olds.map Scalar.type)).takeWhile
        fun s ↦ (s.fault? data).isNone) news ∧
      (readScalars ⟨data, offset⟩ olds).scalars = news ++ olds.drop news.length) ∧
    (∀ e, (place offset (olds.map Scalar.type)).findSome? (Slot.fault? data) = some e →
      (readScalars ⟨data, offset⟩ olds).result = .error e) ∧
    ((place offset (olds.map Scalar.type)).findSome? (Slot.fault? data) = none →
      (readScalars ⟨data, offset⟩ olds).result = .ok () ∧
      (readScalars ⟨data, offset⟩ olds).reader =
        ⟨data, offset + width (olds.map Scalar.type)⟩) := by
  induction olds generalizing offset with
  | nil =>
    refine ⟨⟨[], ⟨rfl, rfl⟩, rfl⟩, ?_, ?_⟩
    · intro e he
      cases he
    · intro _
      exact ⟨rfl, rfl⟩
  | cons old olds ih =>
    obtain ⟨⟨news, hat, hscalars⟩, herror, hok⟩ := ih (offset + old.type.size)
    rw [List.map_cons, place]
    cases hf : Slot.fault? data ⟨old.type, offset⟩ with
    | some e =>
      rw [readScalars_cons_of_fault hf, List.takeWhile_cons, hf, List.findSome?_cons, hf]
      refine ⟨⟨[], ⟨rfl, rfl⟩, rfl⟩, ?_, ?_⟩
      · intro e' he
        cases he
        rfl
      · intro he
        cases he
    | none =>
      obtain ⟨new, htype, hbytes, hr⟩ := exists_readScalars_cons hf olds
      rw [hr, List.takeWhile_cons, hf, List.findSome?_cons, hf]
      refine ⟨⟨new :: news, ⟨?_, ?_⟩, ?_⟩, herror, ?_⟩
      · simp only [Option.isNone_none, if_true, List.map_cons, htype, hat.1]
      · simp only [Option.isNone_none, if_true, List.map_cons, hbytes, hat.2]
      · simp only [hscalars, List.length_cons, List.drop_succ_cons, List.cons_append]
      · intro he
        obtain ⟨hresult, hreader⟩ := hok he
        refine ⟨hresult, ?_⟩
        simp only [hreader, width, Nat.add_assoc]

end Reader

/-! ### Records -/

namespace Layout

/-- Slots that are not at fault are there. -/
theorem le_length_of_no_fault {data : List UInt8} {offset : Nat} {ts : List ScalarType}
    (ho : offset ≤ data.length) (h : ∀ s ∈ place offset ts, s.fault? data = none) :
    offset + width ts ≤ data.length := by
  induction ts generalizing offset with
  | nil => exact ho
  | cons t ts ih =>
    obtain ⟨hs, hts⟩ := List.forall_mem_cons.mp h
    have hfit : offset + t.size ≤ data.length := (Slot.fault?_eq_none_iff.mp hs).1
    have hi := ih hfit hts
    rw [width]
    omega

end Layout

namespace Record

variable {fs : List Field}

/-- The scalars at the slots before the first at fault are new, and the others are old. -/
theorem exists_scalars_decode (old : Record fs) (data : List UInt8) :
    ∃ news, AreAt data ((slots fs).takeWhile fun s ↦ (s.fault? data).isNone) news ∧
      (old.decode data).2.scalars = news ++ old.scalars.drop news.length := by
  obtain ⟨⟨news, hat, hscalars⟩, _⟩ := Reader.readScalars_place data 0 old.scalars
  rw [map_type_scalars] at hat
  refine ⟨news, hat, ?_⟩
  rw [Reader.readScalars_record] at hscalars
  rw [← hscalars]
  simp only [decode, Reader.ofData]
  split <;> rfl

/-- The first slot at fault decides the error, and without one the bytes behind the last slot. -/
theorem decode_result (old : Record fs) (data : List UInt8) :
    (old.decode data).1 =
      match (slots fs).findSome? (Slot.fault? data) with
      | some e => .error e
      | none =>
        if totalSize fs < data.length then .error (.trailingBytes (data.length - totalSize fs))
        else .ok () := by
  obtain ⟨_, herror, hok⟩ := Reader.readScalars_place data 0 old.scalars
  rw [map_type_scalars, Reader.readScalars_record] at herror hok
  change ∀ e, (slots fs).findSome? (Slot.fault? data) = some e → _ at herror
  change (slots fs).findSome? (Slot.fault? data) = none → _ at hok
  simp only [decode, Reader.ofData]
  cases hf : (slots fs).findSome? (Slot.fault? data) with
  | some e =>
    have hresult : (old.read ⟨data, 0⟩).result = .error e := herror e hf
    simp only [hresult]
  | none =>
    obtain ⟨hresult, hreader⟩ := hok hf
    have hle := le_length_of_no_fault (Nat.zero_le _) (List.findSome?_eq_none_iff.mp hf)
    rw [width_types, Nat.zero_add] at hle hreader
    simp only at hresult hreader
    simp only [hresult, hreader, Reader.finish, Reader.isFinished, Reader.remaining]
    by_cases hlt : totalSize fs < data.length
    · have hne : ¬(totalSize fs == data.length) = true := by
        rw [beq_iff_eq]
        omega
      rw [if_neg hne, if_pos hlt]
    · have heq : (totalSize fs == data.length) = true := by
        rw [beq_iff_eq]
        omega
      rw [if_pos heq, if_neg hlt]

/-- Decoding succeeds exactly if no slot is at fault and the slots take up all bytes. -/
theorem decode_eq_ok_iff {old : Record fs} {data : List UInt8} :
    (old.decode data).1 = .ok () ↔
      (∀ s ∈ slots fs, s.fault? data = none) ∧ data.length = totalSize fs := by
  rw [decode_result, ← List.findSome?_eq_none_iff]
  cases hf : (slots fs).findSome? (Slot.fault? data) with
  | some e => simp
  | none =>
    have hle := le_length_of_no_fault (Nat.zero_le _) (List.findSome?_eq_none_iff.mp hf)
    rw [width_types, Nat.zero_add] at hle
    by_cases hlt : totalSize fs < data.length
    · simp only [if_pos hlt, reduceCtorEq, true_and, false_iff]
      omega
    · simp only [if_neg hlt, true_and, true_iff]
      omega

/-- If decoding succeeds, all scalars are those at the slots. -/
theorem areAt_of_decode_eq_ok {old : Record fs} {data : List UInt8}
    (h : (old.decode data).1 = .ok ()) : AreAt data (slots fs) (old.decode data).2.scalars := by
  have hnone := (decode_eq_ok_iff.mp h).1
  have hsound : ∀ s ∈ slots fs, (s.fault? data).isNone = true := by
    intro s hs
    rw [hnone s hs]
    rfl
  have hall : ((slots fs).takeWhile fun s ↦ (s.fault? data).isNone) = slots fs := by
    have ht : (slots fs ++ []).takeWhile _ = _ := List.takeWhile_append_of_pos hsound
    rwa [List.append_nil, List.takeWhile_nil, List.append_nil] at ht
  obtain ⟨news, hat, hscalars⟩ := old.exists_scalars_decode data
  rw [hall] at hat
  have hlength : news.length = old.scalars.length := by
    have hn := congrArg List.length hat.1
    have ho := congrArg List.length (map_type_scalars old)
    simp only [slots, map_type_place, List.length_map] at hn ho
    omega
  rw [hscalars, hlength, List.drop_length, List.append_nil]
  exact hat

/-- Bytes are decoded to the same record and with the same error into any other one. -/
theorem ofBytes_eq (old : Record fs) (data : List UInt8) :
    ofBytes fs data =
      match old.decode data with
      | (.error e, _) => .error e
      | (.ok (), r) => .ok r := by
  have hresult : ((zero fs).decode data).1 = (old.decode data).1 := by
    rw [decode_result, decode_result]
  have hrecord (h : (old.decode data).1 = .ok ()) :
      ((zero fs).decode data).2 = (old.decode data).2 := by
    apply scalars_injective
    exact (areAt_of_decode_eq_ok (hresult.trans h)).unique (areAt_of_decode_eq_ok h)
  unfold ofBytes
  generalize (zero fs).decode data = a at hresult hrecord ⊢
  generalize old.decode data = b at hresult hrecord ⊢
  rcases a with ⟨result, record⟩
  rcases b with ⟨result', record'⟩
  simp only at hresult hrecord
  subst hresult
  cases result with
  | error e => rfl
  | ok _ => simp only [hrecord rfl]

/-- Bytes have a record exactly if it is what any other one becomes by decoding them. -/
theorem ofBytes_eq_ok_iff_decode (old : Record fs) {r : Record fs} {data : List UInt8} :
    ofBytes fs data = .ok r ↔ old.decode data = (.ok (), r) := by
  rw [ofBytes_eq old]
  rcases old.decode data with ⟨_ | _, r'⟩
  · simp
  · simp

/-- The first slot at fault decides what decoding answers, or the bytes behind the last slot do. The
scalars at the slots before it are new and those from it on are old, and without an error the
record is that of the bytes, whatever the old one was. -/
theorem decode_first_fault (old : Record fs) (data : List UInt8) :
    ((old.decode data).1 =
      match (slots fs).findSome? (Slot.fault? data) with
      | some e => .error e
      | none =>
        if totalSize fs < data.length then .error (.trailingBytes (data.length - totalSize fs))
        else .ok ()) ∧
    (∃ news, AreAt data ((slots fs).takeWhile fun s ↦ (s.fault? data).isNone) news ∧
      (old.decode data).2.scalars = news ++ old.scalars.drop news.length) ∧
    ofBytes fs data =
      match old.decode data with
      | (.error e, _) => .error e
      | (.ok (), r) => .ok r :=
  ⟨old.decode_result data, old.exists_scalars_decode data, old.ofBytes_eq data⟩

end Record

end WireSchema
