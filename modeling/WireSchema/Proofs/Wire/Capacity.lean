import Mathlib.Data.List.TakeWhile
import WireSchema.Proofs.Wire.Encoding

/-!
# Encoding into limited room

A slot exceeds the room if it ends behind it. Encoding writes the scalars at the slots before the
first that does, whether that one begins a field or stands inside of an array, and then stops. The
main statement says what becomes of the span and of every byte of its storage, and that the check
behind the writes never finds anything.
-/

namespace WireSchema

open Layout

namespace Slot

/-- The offset behind the bytes of a slot. -/
def stop (s : Slot) : Nat := s.offset + s.type.size

/-- Whether a slot ends behind the given number of bytes. -/
def exceeds (room : Nat) (s : Slot) : Bool := decide (room < s.stop)

end Slot

namespace Layout

/-- The slots of a second row start where the first row ends. -/
theorem place_append (offset : Nat) (ts ts' : List ScalarType) :
    place offset (ts ++ ts') = place offset ts ++ place (offset + width ts) ts' := by
  induction ts generalizing offset with
  | nil => rfl
  | cons t ts ih => rw [List.cons_append, place, ih, place, width, List.cons_append, Nat.add_assoc]

/-- No slot exceeds the room if all types together do not. -/
theorem exceeds_eq_false_of_width_le {room offset : Nat} {ts : List ScalarType}
    (h : offset + width ts ≤ room) : ∀ s ∈ place offset ts, s.exceeds room = false := by
  intro s hs
  have hle := offset_add_size_le offset ts s hs
  rw [Slot.exceeds, decide_eq_false_iff_not, Slot.stop]
  omega

/-- Scalars that exceed the room have a first one that does. -/
theorem exists_first_exceeding {room : Nat} {xs : List Scalar}
    (h : room < width (xs.map Scalar.type)) :
    ∃ front x back, xs = front ++ x :: back ∧ width (front.map Scalar.type) ≤ room ∧
      room < width (front.map Scalar.type) + x.type.size := by
  induction xs generalizing room with
  | nil => exact absurd h (Nat.not_lt_zero _)
  | cons x xs ih =>
    rw [List.map_cons, width] at h
    by_cases hx : room < x.type.size
    · exact ⟨[], x, xs, rfl, Nat.zero_le _, by rwa [List.map_nil, width, Nat.zero_add]⟩
    · have hrest : room - x.type.size < width (xs.map Scalar.type) := by omega
      obtain ⟨front, y, back, rfl, hfront, hy⟩ := ih hrest
      refine ⟨x :: front, y, back, rfl, ?_, ?_⟩
      · rw [List.map_cons, width]
        omega
      · rw [List.map_cons, width]
        omega

/-- The first scalar that exceeds the room stands at the first slot that does. -/
theorem find?_exceeds {room : Nat} {front : List Scalar} {x : Scalar}
    (hfront : width (front.map Scalar.type) ≤ room)
    (hx : room < width (front.map Scalar.type) + x.type.size) (back : List Scalar) :
    (place 0 ((front ++ x :: back).map Scalar.type)).find? (Slot.exceeds room) =
        some ⟨x.type, width (front.map Scalar.type)⟩ ∧
      (place 0 ((front ++ x :: back).map Scalar.type)).takeWhile (fun s ↦ !s.exceeds room) =
        place 0 (front.map Scalar.type) := by
  have hfits : ∀ s ∈ place 0 (front.map Scalar.type), s.exceeds room = false :=
    exceeds_eq_false_of_width_le (by rwa [Nat.zero_add])
  have hexceeds : Slot.exceeds room ⟨x.type, width (front.map Scalar.type)⟩ = true :=
    decide_eq_true hx
  rw [List.map_append, List.map_cons, place_append, place, Nat.zero_add]
  constructor
  · rw [List.find?_append, List.find?_eq_none.mpr (by simpa using hfits), Option.none_or,
      List.find?_cons, hexceeds]
  · rw [List.takeWhile_append_of_pos (by simpa using hfits), List.takeWhile_cons, hexceeds]
    simp

end Layout

/-! ### Scalars in a row -/

namespace Writer

/-- Scalars are written up to the first that does not fit, and that one is the error. -/
theorem writeScalars_of_exceeds {w : Writer} {front back : List Scalar} {x : Scalar}
    (hfront : w.index + width (front.map Scalar.type) ≤ w.capacity)
    (hx : w.capacity < w.index + width (front.map Scalar.type) + x.type.size) :
    w.writeScalars (front ++ x :: back) =
      (.error (.overflow (w.index + width (front.map Scalar.type) + x.type.size) w.capacity),
        w.put (front.flatMap Scalar.bytes)) := by
  have hlength := length_flatMap_bytes front
  have hindex : (w.put (front.flatMap Scalar.bytes)).index =
      w.index + width (front.map Scalar.type) := by
    rw [put, hlength]
  have hcapacity : (w.put (front.flatMap Scalar.bytes)).capacity = w.capacity :=
    capacity_put (by omega)
  have hwrite : (w.put (front.flatMap Scalar.bytes)).write x.type x.value =
      (.error (.overflow (w.index + width (front.map Scalar.type) + x.type.size) w.capacity),
        w.put (front.flatMap Scalar.bytes)) := by
    rw [write, hindex, hcapacity, if_neg (Nat.not_le.mpr hx)]
  rw [writeScalars_append, writeScalars_of_fits hfront]
  simp only [writeScalars, hwrite]

/-- A write never moves the index past the end of the buffer. -/
theorem index_le_capacity_write {w : Writer} (h : w.index ≤ w.capacity) (t : ScalarType)
    (v : t.Value) : (w.write t v).2.index ≤ (w.write t v).2.capacity := by
  rw [capacity_write]
  unfold write
  split
  next hfits => rwa [put, ScalarType.length_encode]
  next => exact h

/-- Writing scalars in a row never moves the index past the end of the buffer, nor that end. -/
theorem index_le_capacity_writeScalars {w : Writer} (h : w.index ≤ w.capacity)
    (xs : List Scalar) :
    (w.writeScalars xs).2.index ≤ w.capacity ∧ (w.writeScalars xs).2.capacity = w.capacity := by
  induction xs generalizing w with
  | nil => exact ⟨h, rfl⟩
  | cons x xs ih =>
    have hstep := index_le_capacity_write h x.type x.value
    have hcapacity := capacity_write w x.type x.value
    cases hw : w.write x.type x.value with
    | mk result w' =>
      rw [hw] at hstep hcapacity
      cases result with
      | error e =>
        simp only [writeScalars, hw]
        exact ⟨hcapacity ▸ hstep, hcapacity⟩
      | ok _ =>
        simp only [writeScalars, hw]
        rw [← hcapacity]
        exact ih hstep

end Writer

/-! ### Records -/

namespace Record

variable {fs : List Field}

/-- Behind the writes, the index is not past the end of the buffer. -/
theorem index_le_capacity_write (r : Record fs) {w : Writer} (h : w.index ≤ w.capacity) :
    (r.write w).2.index ≤ w.capacity := by
  rw [← Writer.writeScalars_record]
  exact (Writer.index_le_capacity_writeScalars h r.scalars).1

/-- The check behind the writes never finds anything. -/
theorem writeWithin_eq_write (r : Record fs) {w : Writer} (h : w.index ≤ w.capacity) :
    r.writeWithin w = r.write w := by
  have hindex := r.index_le_capacity_write h
  unfold writeWithin
  split
  next e w' hw => rw [hw]
  next w' hw =>
    rw [hw] at hindex ⊢
    exact if_neg (Nat.not_lt.mpr hindex)

/-- A record is encoded up to its first scalar that exceeds the span: the scalars before it are put
at the start, and every other byte and the length stay. -/
theorem encode_of_exceeds (r : Record fs) {s : Span} (hs : s.length ≤ s.storage.length)
    {front back : List Scalar} {x : Scalar} (hr : r.scalars = front ++ x :: back)
    (hfront : width (front.map Scalar.type) ≤ s.length)
    (hx : s.length < width (front.map Scalar.type) + x.type.size) :
    r.encode s =
      (.error (.overflow (width (front.map Scalar.type) + x.type.size) s.length),
        ⟨front.flatMap Scalar.bytes ++ s.storage.drop (width (front.map Scalar.type)),
          s.length⟩) := by
  have hlength := length_flatMap_bytes front
  have hcapacity : (Writer.ofStorage s.bytes).capacity = s.length := Span.length_bytes hs
  have hindex : (Writer.ofStorage s.bytes).index = 0 := rfl
  have hwrite : r.write (Writer.ofStorage s.bytes) =
      (.error (.overflow (width (front.map Scalar.type) + x.type.size) s.length),
        (Writer.ofStorage s.bytes).put (front.flatMap Scalar.bytes)) := by
    rw [← Writer.writeScalars_record, hr, Writer.writeScalars_of_exceeds]
    · rw [hcapacity, hindex, Nat.zero_add]
    · omega
    · omega
  have hput : ((Writer.ofStorage s.bytes).put (front.flatMap Scalar.bytes)).storage =
      front.flatMap Scalar.bytes ++ s.bytes.drop (width (front.map Scalar.type)) := by
    simp only [Writer.put, Writer.ofStorage, hlength, List.take_zero, List.nil_append,
      Nat.zero_add]
  have hrest : s.bytes.drop (width (front.map Scalar.type)) ++ s.storage.drop s.length =
      s.storage.drop (width (front.map Scalar.type)) := Span.drop_bytes_append hs hfront
  rw [encode, Span.write, r.writeWithin_eq_write (by omega), hwrite]
  simp only [Span.setBytes, hput, List.append_assoc, hrest]

/-- A record is encoded exactly if it takes no more than the span shows. Then its bytes are put at
the start, the length becomes their number and the storage behind them stays. Otherwise the first
slot that exceeds the span decides the error, the scalars before it are put at their slots, and the
length and all of the storage from that slot on stay. The check behind the writes finds nothing. -/
theorem encode_first_exceeding (r : Record fs) {s : Span} (hs : s.length ≤ s.storage.length) :
    ((r.encode s).1 = .ok () ↔ totalSize fs ≤ s.length) ∧
    (r.encode s =
      match (slots fs).find? (Slot.exceeds s.length) with
      | none => (.ok (), ⟨r.wire ++ s.storage.drop (totalSize fs), totalSize fs⟩)
      | some x =>
        (.error (.overflow x.stop s.length),
          ⟨r.wire.take x.offset ++ s.storage.drop x.offset, s.length⟩)) ∧
    (∃ n, AreAt (r.encode s).2.storage ((slots fs).takeWhile fun x ↦ !x.exceeds s.length)
      (r.scalars.take n)) ∧
    ∀ w, r.write (Writer.ofStorage s.bytes) = (.ok (), w) →
      ¬(Writer.ofStorage s.bytes).capacity < w.index := by
  have hslots : slots fs = place 0 (r.scalars.map Scalar.type) := by
    rw [map_type_scalars, slots]
  have hcheck (w : Writer) (hw : r.write (Writer.ofStorage s.bytes) = (.ok (), w)) :
      ¬(Writer.ofStorage s.bytes).capacity < w.index := by
    have hindex := r.index_le_capacity_write (w := Writer.ofStorage s.bytes) (Nat.zero_le _)
    rw [hw] at hindex
    exact Nat.not_lt.mpr hindex
  by_cases hfits : totalSize fs ≤ s.length
  · have hencode := r.encode_of_fits hs hfits
    have hnone : ∀ x ∈ slots fs, x.exceeds s.length = false :=
      exceeds_eq_false_of_width_le (by rwa [width_types, Nat.zero_add])
    have hall : (slots fs).takeWhile (fun x ↦ !x.exceeds s.length) = slots fs :=
      List.takeWhile_eq_self_iff.mpr (by simpa using hnone)
    have hat := areAt_append [] r.scalars (s.storage.drop (totalSize fs))
    refine ⟨?_, ?_, ⟨r.scalars.length, ?_⟩, hcheck⟩
    · simp only [hencode, hfits]
    · rw [List.find?_eq_none.mpr (by simpa using hnone), hencode]
    · rw [hencode, hall, List.take_length, hslots]
      exact hat
  · have hwidth : s.length < width (r.scalars.map Scalar.type) := by
      rw [map_type_scalars, width_types]
      omega
    obtain ⟨front, x, back, hr, hfront, hx⟩ := exists_first_exceeding hwidth
    have hencode := r.encode_of_exceeds hs hr hfront hx
    obtain ⟨hfind, hbefore⟩ := find?_exceeds hfront hx back
    have htake : r.wire.take (width (front.map Scalar.type)) = front.flatMap Scalar.bytes := by
      rw [wire, hr, List.flatMap_append]
      exact List.take_left' (length_flatMap_bytes front)
    have hat := areAt_append [] front (s.storage.drop (width (front.map Scalar.type)))
    refine ⟨?_, ?_, ⟨front.length, ?_⟩, hcheck⟩
    · simp only [hencode, hfits, reduceCtorEq]
    · rw [hslots, hr, hfind, hencode]
      simp only [htake, Slot.stop]
    · rw [hslots, hr, hbefore, hencode, List.take_left]
      exact hat

/-- A span may end inside of an array: two of four numbers are written. -/
theorem encode_of_span_within_array :
    ∃ r : Record [⟨.uint16, "seq", none⟩, ⟨.uint16, "rgb", some 3⟩],
      (⟨List.replicate 10 255, 5⟩ : Span).length ≤
          (⟨List.replicate 10 255, 5⟩ : Span).storage.length ∧
        r.encode ⟨List.replicate 10 255, 5⟩ =
          (.error (.overflow 6 5), ⟨[1, 2, 3, 4, 255, 255, 255, 255, 255, 255], 5⟩) := by
  let r : Record [⟨.uint16, "seq", none⟩, ⟨.uint16, "rgb", some 3⟩] :=
    .cons (0x0102 : UInt16) (.cons (#v[0x0304, 0x0506, 0x0708] : Vector UInt16 3) .nil)
  have hs : (⟨List.replicate 10 255, 5⟩ : Span).length ≤
      (⟨List.replicate 10 255, 5⟩ : Span).storage.length := by decide
  exact ⟨r, hs, (encode_first_exceeding r hs).2.1.trans (by rfl)⟩

end Record

end WireSchema
