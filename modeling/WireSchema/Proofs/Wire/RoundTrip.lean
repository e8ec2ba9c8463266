import WireSchema.Proofs.Wire.Decoding
import WireSchema.Proofs.Wire.Encoding

/-!
# Encoding and decoding

The bytes of a record have its scalars at their slots, and no record has other scalars there. So
bytes are decoded to a record exactly if they are its bytes. The main statement says that encoding
and decoding are inverse to each other, and which bytes can be decoded at all.
-/

namespace WireSchema

open Layout

/-- A slot is not at fault if it has the bytes of a scalar. -/
theorem Slot.fault?_eq_none_of_bytes {data : List UInt8} {s : Slot} {x : Scalar}
    (ht : x.type = s.type) (hb : x.bytes = s.bytes data) : s.fault? data = none := by
  rcases s with ⟨t, offset⟩
  rcases x with ⟨t', v⟩
  change t' = t at ht
  subst ht
  have hlength := congrArg List.length hb
  rw [Layout.length_bytes, Slot.bytes, List.length_take, List.length_drop] at hlength
  simp only at hlength
  have hp := t'.size_pos
  have hfit : offset + t'.size ≤ data.length := by omega
  refine fault?_eq_none_iff.mpr ⟨hfit, fun hbool ↦ ?_⟩
  change t' = .bool at hbool
  subst hbool
  rw [Slot.bytes_of_bool rfl hfit] at hb
  cases v with
  | false => exact .inl (List.cons.inj hb).1.symm
  | true => exact .inr (List.cons.inj hb).1.symm

/-- Slots are not at fault if scalars are at them. -/
theorem Layout.AreAt.fault?_eq_none {data : List UInt8} {ss : List Slot} {xs : List Scalar}
    (h : AreAt data ss xs) : ∀ s ∈ ss, s.fault? data = none := by
  obtain ⟨ht, hb⟩ := h
  induction ss generalizing xs with
  | nil => simp
  | cons s ss ih =>
    cases xs with
    | nil => cases ht
    | cons x xs =>
      obtain ⟨ht, hts⟩ := List.cons.inj ht
      obtain ⟨hb, hbs⟩ := List.cons.inj hb
      exact List.forall_mem_cons.mpr ⟨Slot.fault?_eq_none_of_bytes ht hb, ih hts hbs⟩

namespace Record

variable {fs : List Field}

/-- The scalars of a record are at the slots of its bytes. -/
theorem areAt_wire (r : Record fs) : AreAt r.wire (slots fs) r.scalars := by
  have h := areAt_append [] r.scalars []
  rwa [map_type_scalars, List.nil_append, List.append_nil] at h

/-- Bytes are decoded to a record exactly if they are its bytes. -/
theorem ofBytes_eq_ok_iff {data : List UInt8} {r : Record fs} :
    ofBytes fs data = .ok r ↔ r.wire = data := by
  constructor
  · intro h
    have hdecode := (ofBytes_eq_ok_iff_decode (zero fs)).mp h
    have hresult : ((zero fs).decode data).1 = .ok () := by rw [hdecode]
    have hat := areAt_of_decode_eq_ok hresult
    have hlength := (decode_eq_ok_iff.mp hresult).2
    rw [hdecode] at hat
    rw [wire, List.flatMap_def, hat.2, ← List.flatMap_def, slots, flatMap_bytes_place, width_types,
      ← hlength, List.drop_zero, List.take_length]
  · rintro rfl
    have hat := r.areAt_wire
    have hresult : (r.decode r.wire).1 = .ok () :=
      decode_eq_ok_iff.mpr ⟨hat.fault?_eq_none, r.length_wire⟩
    have hrecord : (r.decode r.wire).2 = r :=
      scalars_injective ((areAt_of_decode_eq_ok hresult).unique hat)
    exact (ofBytes_eq_ok_iff_decode r).mpr (Prod.ext hresult hrecord)

/-- There is a record for bytes exactly if they are as many as the fields take and the byte of every
boolean is zero or one. -/
theorem exists_ofBytes_iff {data : List UInt8} :
    (∃ r, ofBytes fs data = .ok r) ↔
      data.length = totalSize fs ∧
        ∀ s ∈ slots fs, s.type = .bool → s.byte data = 0 ∨ s.byte data = 1 := by
  have hdecode : (∃ r, ofBytes fs data = .ok r) ↔ ((zero fs).decode data).1 = .ok () := by
    constructor
    · rintro ⟨r, hr⟩
      rw [(ofBytes_eq_ok_iff_decode (zero fs)).mp hr]
    · intro h
      exact ⟨_, (ofBytes_eq_ok_iff_decode (zero fs)).mpr (Prod.ext h rfl)⟩
  rw [hdecode, decode_eq_ok_iff]
  constructor
  · rintro ⟨hnone, hlength⟩
    exact ⟨hlength, fun s hs ↦ (Slot.fault?_eq_none_iff.mp (hnone s hs)).2⟩
  · rintro ⟨hlength, hbool⟩
    refine ⟨fun s hs ↦ Slot.fault?_eq_none_iff.mpr ⟨?_, hbool s hs⟩, hlength⟩
    have hle := offset_add_size_le 0 (types fs) s hs
    rw [width_types] at hle
    omega

/-- Encoding and decoding are inverse to each other: every record has bytes, and they are decoded to
it and to no other; bytes that are as many as the fields take, with zero or one for every boolean,
are those of a record, and no others are. -/
theorem toBytes_ofBytes_inverse (fs : List Field) :
    (∀ r : Record fs, ∃ data, r.toBytes = .ok data) ∧
    (∀ (r : Record fs) data, r.toBytes = .ok data ↔ ofBytes fs data = .ok r) ∧
    ∀ data, (∃ r, ofBytes fs data = .ok r) ↔
      data.length = totalSize fs ∧
        ∀ s ∈ slots fs, s.type = .bool → s.byte data = 0 ∨ s.byte data = 1 := by
  refine ⟨fun r ↦ ⟨r.wire, r.toBytes_eq⟩, fun r data ↦ ?_, fun data ↦ exists_ofBytes_iff⟩
  rw [toBytes_eq, ofBytes_eq_ok_iff, Except.ok.injEq]

end Record

end WireSchema
