import WireSchema.Proofs.Wire.Layout

/-!
# Encoding records

Writing a record goes through its scalars in order, whatever fields they belong to. If they fit,
their bytes are put one after the other. The main statement says that the bytes of a record are
those of its scalars in a row.
-/

namespace WireSchema

open Layout

/-- The bytes of the scalars of a record, one after the other. -/
def Record.wire {fs : List Field} (r : Record fs) : List UInt8 := r.scalars.flatMap Scalar.bytes

/-- The bytes of a record take the exact size of its fields. -/
theorem Record.length_wire {fs : List Field} (r : Record fs) : r.wire.length = totalSize fs := by
  rw [wire, length_flatMap_bytes, map_type_scalars, width_types]

namespace Writer

/-! ### Scalars in a row -/

/-- Writes scalars in order up to the first that does not fit. -/
def writeScalars (w : Writer) : List Scalar → Except WireError Unit × Writer
  | [] => (.ok (), w)
  | x :: xs =>
    match w.write x.type x.value with
    | (.error e, w') => (.error e, w')
    | (.ok (), w') => w'.writeScalars xs

/-- The second of two rows is written if all of the first fits. -/
theorem writeScalars_append (w : Writer) (xs ys : List Scalar) :
    w.writeScalars (xs ++ ys) =
      match w.writeScalars xs with
      | (.error e, w') => (.error e, w')
      | (.ok (), w') => w'.writeScalars ys := by
  induction xs generalizing w with
  | nil => rfl
  | cons x xs ih =>
    simp only [List.cons_append, writeScalars]
    split
    · rfl
    · next w' _ => exact ih w'

/-- An array is written as its scalars. -/
theorem writeScalars_map_mk (w : Writer) (t : ScalarType) (vs : List t.Value) :
    w.writeScalars (vs.map (Scalar.mk t)) = w.writeArray t vs := by
  induction vs generalizing w with
  | nil => rfl
  | cons v vs ih =>
    cases hw : w.write t v with
    | mk result w' =>
      cases result with
      | error e => simp only [List.map_cons, writeScalars, writeArray, hw]
      | ok _ => simp only [List.map_cons, writeScalars, writeArray, hw, ih]

/-- A field is written as its scalars. -/
theorem writeScalars_field (w : Writer) (f : Field) (v : f.Value) :
    w.writeScalars (f.scalars v) = f.write w v := by
  rcases f with ⟨t, name, _ | n⟩
  · simp only [Field.scalars, writeScalars, Field.write]
    cases hw : w.write t v with
    | mk result w' => cases result <;> rfl
  · exact writeScalars_map_mk w t v.toList

/-- A record is written as its scalars. -/
theorem writeScalars_record (w : Writer) {fs : List Field} (r : Record fs) :
    w.writeScalars r.scalars = r.write w := by
  induction r generalizing w with
  | nil => rfl
  | @cons f fs v r ih =>
    rw [Record.scalars, writeScalars_append, writeScalars_field]
    cases hw : f.write w v with
    | mk result w' =>
      cases result with
      | error e => simp only [Record.write, hw]
      | ok _ => simp only [Record.write, hw, ih]

/-! ### Scalars that fit -/

/-- No bytes change nothing. -/
theorem put_nil (w : Writer) : w.put [] = w := by
  simp [put]

/-- Bytes that fit are put one after the other. -/
theorem put_put {w : Writer} {a b : List UInt8}
    (h : w.index + (a.length + b.length) ≤ w.capacity) : (w.put a).put b = w.put (a ++ b) := by
  rcases w with ⟨storage, index⟩
  simp only [capacity] at h
  have hfront : (storage.take index ++ a).length = index + a.length := by
    rw [List.length_append, List.length_take]
    omega
  simp only [put, List.length_append, Writer.mk.injEq]
  constructor
  · rw [List.take_left' hfront, ← Nat.add_assoc, ← List.drop_drop, List.drop_left' hfront,
      List.drop_drop, List.append_assoc, List.append_assoc, List.append_assoc, List.append_assoc]
  · omega

/-- Scalars that fit are all written. -/
theorem writeScalars_of_fits {w : Writer} {xs : List Scalar}
    (h : w.index + width (xs.map Scalar.type) ≤ w.capacity) :
    w.writeScalars xs = (.ok (), w.put (xs.flatMap Scalar.bytes)) := by
  induction xs generalizing w with
  | nil => rw [List.flatMap_nil, put_nil, writeScalars]
  | cons x xs ih =>
    have hx := length_bytes x
    have hxs := length_flatMap_bytes xs
    rw [List.map_cons, width] at h
    have hwrite : w.write x.type x.value = (.ok (), w.put x.bytes) := if_pos (by omega)
    have hindex : (w.put x.bytes).index = w.index + x.type.size := by
      rw [put, hx]
    have hcapacity : (w.put x.bytes).capacity = w.capacity := capacity_put (by omega)
    simp only [writeScalars, hwrite]
    rw [ih (by omega), put_put (by omega), List.flatMap_cons]

end Writer

/-! ### Records -/

namespace Record

variable {fs : List Field}

/-- A record that fits is written, and not more than the buffer holds. -/
theorem writeWithin_of_fits (r : Record fs) {w : Writer} (h : w.index + totalSize fs ≤ w.capacity) :
    r.writeWithin w = (.ok (), w.put r.wire) := by
  have hfits : w.index + width (r.scalars.map Scalar.type) ≤ w.capacity := by
    rwa [map_type_scalars, width_types]
  have hwrite : r.write w = (.ok (), w.put r.wire) := by
    rw [← Writer.writeScalars_record, Writer.writeScalars_of_fits hfits]
    rfl
  have hindex : ¬w.capacity < (w.put r.wire).index := by
    simp only [Writer.put, r.length_wire]
    omega
  simp only [writeWithin, hwrite, if_neg hindex]

/-- A record is encoded into a span that is long enough: its bytes are put at the start, and the
others stay. -/
theorem encode_of_fits (r : Record fs) {s : Span} (hs : s.length ≤ s.storage.length)
    (h : totalSize fs ≤ s.length) :
    r.encode s = (.ok (), ⟨r.wire ++ s.storage.drop (totalSize fs), totalSize fs⟩) := by
  have hlength := r.length_wire
  have hbytes := Span.length_bytes hs
  have hfits : (Writer.ofStorage s.bytes).index + totalSize fs ≤
      (Writer.ofStorage s.bytes).capacity := by
    simp only [Writer.ofStorage, Writer.capacity, hbytes]
    omega
  have hput : (Writer.ofStorage s.bytes).put r.wire =
      ⟨r.wire ++ s.bytes.drop (totalSize fs), totalSize fs⟩ := by
    simp only [Writer.put, Writer.ofStorage, hlength, List.take_zero, List.nil_append, Nat.zero_add]
  have hrest : s.bytes.drop (totalSize fs) ++ s.storage.drop s.length =
      s.storage.drop (totalSize fs) := Span.drop_bytes_append hs h
  have hmin : min (totalSize fs) (r.wire ++ s.storage.drop (totalSize fs)).length =
      totalSize fs := by
    rw [List.length_append, hlength]
    omega
  simp only [encode, Span.write, r.writeWithin_of_fits hfits, hput, Span.setBytes, Span.setLength,
    List.append_assoc, hrest, hmin]

/-- The bytes of a record are those of its scalars, one after the other. -/
theorem toBytes_eq (r : Record fs) : r.toBytes = .ok r.wire := by
  have hstorage : (List.replicate (totalSize fs) (0 : UInt8)).length = totalSize fs :=
    List.length_replicate
  have hencode := r.encode_of_fits (s := Span.ofStorage (List.replicate (totalSize fs) 0))
    (Nat.le_refl _) (Nat.le_of_eq hstorage.symm)
  have hrest : (List.replicate (totalSize fs) (0 : UInt8)).drop (totalSize fs) = [] :=
    List.drop_of_length_le (Nat.le_of_eq hstorage)
  simp only [toBytes, hencode]
  simp only [Span.ofStorage, Span.bytes, hrest, List.append_nil]
  rw [List.take_of_length_le (Nat.le_of_eq r.length_wire)]

end Record

end WireSchema
