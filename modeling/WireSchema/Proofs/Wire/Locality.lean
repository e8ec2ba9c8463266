import WireSchema.Proofs.Wire.Digits
import WireSchema.Proofs.Wire.Encoding

/-!
# Where the bytes of a field are

No offset is written down anywhere: a field starts where the writes before it end. The bytes around
a field depend on the other fields only, and its own bytes determine its value. The main statement
says which bytes a record has, where those of each field are, and what a change of one field
changes.
-/

namespace WireSchema

open Layout

/-- The value of the field at a position. -/
def Record.get : {fs : List Field} → Record fs → (k : Fin fs.length) → fs[k].Value
  | _, cons v _, ⟨0, _⟩ => v
  | _, cons _ r, ⟨k + 1, h⟩ => r.get ⟨k, Nat.lt_of_succ_lt_succ h⟩

/-- The bytes of the value of a field: those of its scalars, one after the other. -/
def Field.wire (f : Field) (v : f.Value) : List UInt8 := (f.scalars v).flatMap Scalar.bytes

/-- The number of bytes of the fields before a position. -/
def Layout.fieldOffset (fs : List Field) (k : Nat) : Nat :=
  (fs.take k).foldr (fun f n ↦ f.wireSize + n) 0

namespace Field

/-- The value of a field has as many bytes as the field takes. -/
theorem length_wire (f : Field) (v : f.Value) : (f.wire v).length = f.wireSize := by
  rw [wire, length_flatMap_bytes, map_type_fieldScalars, types, width_replicate, wireSize_eq]

/-- The value of a field is determined by its bytes. -/
theorem wire_injective {f : Field} {v v' : f.Value} (h : f.wire v = f.wire v') : v = v' := by
  have hat := areAt_append [] (f.scalars v) []
  have hat' := areAt_append [] (f.scalars v') []
  change AreAt ([] ++ (f.wire v ++ [])) _ _ at hat
  change AreAt ([] ++ (f.wire v' ++ [])) _ _ at hat'
  rw [map_type_fieldScalars] at hat hat'
  rw [h] at hat
  exact fieldScalars_injective (hat.unique hat')

end Field

namespace Record
variable {fs : List Field}

/-- The bytes of a record are those of its first field and then those of the other ones. -/
theorem wire_cons {f : Field} (v : f.Value) (r : Record fs) :
    (cons v r).wire = f.wire v ++ r.wire := by
  rw [wire, scalars, List.flatMap_append]
  rfl

/-- A record is determined by the values of its fields. -/
theorem ext_get {r r' : Record fs} (h : ∀ k, r.get k = r'.get k) : r = r' := by
  induction r with
  | nil =>
    cases r'
    rfl
  | @cons f fs v r ih =>
    cases r' with
    | cons v' r' =>
      have hv : v = v' := h ⟨0, Nat.succ_pos _⟩
      have hr : r = r' := ih fun k ↦ h k.succ
      rw [hv, hr]

/-- The bytes of a record are those of its fields in their order. -/
theorem wire_eq_flatMap (r : Record fs) :
    r.wire = (List.finRange fs.length).flatMap fun k ↦ fs[k].wire (r.get k) := by
  induction r with
  | nil => rfl
  | @cons f fs v r ih =>
    have hrange : List.finRange (f :: fs).length = 0 :: (List.finRange fs.length).map Fin.succ :=
      List.finRange_succ
    rw [wire_cons, ih, hrange, List.flatMap_cons, List.flatMap_map]
    rfl

/-- What stands around the bytes of a field, as many bytes before it as the fields there take, does
not depend on its value. -/
theorem exists_wire_around (r : Record fs) (k : Fin fs.length) :
    ∃ front back, front.length = fieldOffset fs k ∧
      ∀ r' : Record fs, (∀ j, j ≠ k → r.get j = r'.get j) →
        r'.wire = front ++ (fs[k].wire (r'.get k) ++ back) := by
  induction r with
  | nil => exact k.elim0
  | @cons f fs v r ih =>
    cases k using Fin.cases with
    | zero =>
      refine ⟨[], r.wire, rfl, fun r' h ↦ ?_⟩
      cases r' with
      | cons v' r' =>
        have hr : r = r' := ext_get fun j ↦ h j.succ (Fin.succ_ne_zero j)
        rw [wire_cons, hr]
        rfl
    | succ k =>
      obtain ⟨front, back, hlength, hwire⟩ := ih k
      refine ⟨f.wire v ++ front, back, ?_, fun r' h ↦ ?_⟩
      · rw [List.length_append, Field.length_wire, hlength]
        rfl
      · cases r' with
        | cons v' r' =>
          have hv : v = v' := h 0 (Fin.succ_ne_zero k).symm
          have hr := hwire r' fun j hj ↦ h j.succ fun he ↦ hj (Fin.succ_inj.mp he)
          rw [wire_cons, hr, ← hv, List.append_assoc]
          rfl

/-- A field takes up the bytes behind the fields before it. -/
theorem take_drop_wire (r : Record fs) (k : Fin fs.length) :
    (r.wire.drop (fieldOffset fs k)).take fs[k].wireSize = fs[k].wire (r.get k) := by
  obtain ⟨front, back, hlength, hwire⟩ := r.exists_wire_around k
  rw [hwire r fun _ _ ↦ rfl, List.drop_left' hlength, List.take_left' (Field.length_wire _ _)]

/-- Records that differ in one field only have the same bytes around it. -/
theorem getElem?_wire_of_outside {r r' : Record fs} {k : Fin fs.length}
    (h : ∀ j, j ≠ k → r.get j = r'.get j) {i : Nat}
    (hi : i < fieldOffset fs k ∨ fieldOffset fs k + fs[k].wireSize ≤ i) :
    r.wire[i]? = r'.wire[i]? := by
  obtain ⟨front, back, hlength, hwire⟩ := r.exists_wire_around k
  rw [hwire r fun _ _ ↦ rfl, hwire r' h]
  rcases hi with hbefore | hbehind
  · rw [List.getElem?_append_left (by omega), List.getElem?_append_left (by omega)]
  · have hv := Field.length_wire fs[k] (r.get k)
    have hv' := Field.length_wire fs[k] (r'.get k)
    rw [List.getElem?_append_right (by omega), List.getElem?_append_right (by omega),
      List.getElem?_append_right (by omega), List.getElem?_append_right (by omega), hv, hv']

/-- Records that differ in a field have other bytes in its place. -/
theorem exists_getElem?_wire_ne {r r' : Record fs} {k : Fin fs.length} (h : r.get k ≠ r'.get k) :
    ∃ i, fieldOffset fs k ≤ i ∧ i < fieldOffset fs k + fs[k].wireSize ∧
      r.wire[i]? ≠ r'.wire[i]? := by
  apply Classical.byContradiction
  intro hnone
  apply h
  apply Field.wire_injective
  rw [← take_drop_wire, ← take_drop_wire]
  ext1 i
  rw [List.getElem?_take, List.getElem?_take]
  split
  · next hi =>
    rw [List.getElem?_drop, List.getElem?_drop]
    apply Classical.byContradiction
    intro hne
    exact hnone ⟨fieldOffset fs k + i, by omega, by omega, hne⟩
  · rfl

/-- Every record has bytes: those of its fields in their order, each field behind the ones before
it. The bytes of a scalar are the digits of its number, most significant first. Records that differ
in one field only have the same bytes around it, and other bytes in its place. -/
theorem toBytes_layout (fs : List Field) :
    (∀ r : Record fs,
      r.toBytes = .ok ((List.finRange fs.length).flatMap fun k ↦ fs[k].wire (r.get k))) ∧
    (∀ (t : ScalarType) (v : t.Value), (t.encode v).length = t.size ∧
      ∀ i (h : i < (t.encode v).length),
        ((t.encode v)[i].toNat : Int) =
          t.number v / BigEndian.capacity (t.size - 1 - i) % 256) ∧
    (∀ (r : Record fs) data, r.toBytes = .ok data →
      ∀ k : Fin fs.length,
        (data.drop (fieldOffset fs k)).take fs[k].wireSize = fs[k].wire (r.get k)) ∧
    ∀ (r r' : Record fs) data data' (k : Fin fs.length), r.toBytes = .ok data →
      r'.toBytes = .ok data' → (∀ j, j ≠ k → r.get j = r'.get j) →
      (∀ i, i < fieldOffset fs k ∨ fieldOffset fs k + fs[k].wireSize ≤ i →
        data[i]? = data'[i]?) ∧
      (r.get k ≠ r'.get k → ∃ i, fieldOffset fs k ≤ i ∧
        i < fieldOffset fs k + fs[k].wireSize ∧ data[i]? ≠ data'[i]?) := by
  have hbytes (r : Record fs) {data} (h : r.toBytes = .ok data) : data = r.wire := by
    rw [toBytes_eq] at h
    exact (Except.ok.inj h).symm
  refine ⟨fun r ↦ ?_, fun t v ↦ ⟨t.length_encode v, fun i h ↦ ScalarType.toNat_getElem_encode h⟩,
    fun r data h k ↦ ?_, fun r r' data data' k h h' hj ↦ ?_⟩
  · rw [toBytes_eq, wire_eq_flatMap]
  · rw [hbytes r h]
    exact r.take_drop_wire k
  · rw [hbytes r h, hbytes r' h']
    exact ⟨fun i hi ↦ getElem?_wire_of_outside hj hi, exists_getElem?_wire_ne⟩

/-- A change of one number in an array changes bytes of the array only. -/
theorem toBytes_of_changed_array :
    ∃ (r r' : Record [⟨.bool, "on", none⟩, ⟨.int16, "xy", some 2⟩, ⟨.uint8, "k", none⟩])
        (data data' : List UInt8) (k : Fin 3),
      k.val = 1 ∧ r.toBytes = .ok data ∧ data = [1, 0xff, 0xfe, 0, 3, 7] ∧
      r'.toBytes = .ok data' ∧ data' = [1, 0xff, 0xfe, 0x80, 0, 7] ∧
      (∀ j, j ≠ k → r.get j = r'.get j) ∧ r.get k ≠ r'.get k ∧
      (∀ i, i < 1 ∨ 5 ≤ i → data[i]? = data'[i]?) ∧
      ∃ i, 1 ≤ i ∧ i < 5 ∧ data[i]? ≠ data'[i]? := by
  let r : Record [⟨.bool, "on", none⟩, ⟨.int16, "xy", some 2⟩, ⟨.uint8, "k", none⟩] :=
    .cons true (.cons (#v[-2, 3] : Vector Int16 2) (.cons (7 : UInt8) .nil))
  let r' : Record [⟨.bool, "on", none⟩, ⟨.int16, "xy", some 2⟩, ⟨.uint8, "k", none⟩] :=
    .cons true (.cons (#v[-2, -32768] : Vector Int16 2) (.cons (7 : UInt8) .nil))
  have hr : r.toBytes = .ok [1, 0xff, 0xfe, 0, 3, 7] := by rfl
  have hr' : r'.toBytes = .ok [1, 0xff, 0xfe, 0x80, 0, 7] := by rfl
  let k : Fin 3 := ⟨1, by decide⟩
  have hother : ∀ j, j ≠ k → r.get j = r'.get j := by
    rintro ⟨j, hj⟩ hne
    change j < 3 at hj
    obtain rfl | rfl | rfl : j = 0 ∨ j = 1 ∨ j = 2 := by omega
    · rfl
    · exact absurd rfl hne
    · rfl
  have hchanged : r.get k ≠ r'.get k := by
    intro h
    have hvector : (#v[-2, 3] : Vector Int16 2) = #v[-2, -32768] := h
    revert hvector
    decide
  obtain ⟨hsame, hdiffer⟩ := (toBytes_layout _).2.2.2 r r' _ _ k hr hr' hother
  exact ⟨r, r', _, _, k, rfl, hr, rfl, hr', rfl, hother, hchanged, hsame, hdiffer hchanged⟩

end Record

end WireSchema
