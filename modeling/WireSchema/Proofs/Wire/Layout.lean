import WireSchema.Wire.Record

/-!
# The layout of records

A record is a list of scalars, and a list of fields a list of slots: types with the offsets of
their bytes, counted from zero and without gaps. The main statements say that a record is
determined by its scalars, that scalars are determined by their types and bytes, and that slots in a
row take up their bytes.
-/

namespace WireSchema

/-- A value with its type. -/
structure Scalar where
  type : ScalarType
  value : type.Value

/-- A type with the offset of its bytes. -/
structure Slot where
  type : ScalarType
  offset : Nat
  deriving DecidableEq, Repr

/-- The bytes of a scalar. -/
def Scalar.bytes (x : Scalar) : List UInt8 := x.type.encode x.value

/-- The bytes at a slot, as far as they are there. -/
def Slot.bytes (data : List UInt8) (s : Slot) : List UInt8 := (data.drop s.offset).take s.type.size

/-- The types of the scalars in a field. -/
def Field.types (f : Field) : List ScalarType := List.replicate f.count f.type

/-- The scalars in the value of a field. -/
def Field.scalars : (f : Field) → f.Value → List Scalar
  | ⟨t, _, none⟩, v => [⟨t, v⟩]
  | ⟨t, _, some _⟩, v => v.toList.map (Scalar.mk t)

/-- The scalars of a record, in the order of its fields. -/
def Record.scalars : {fs : List Field} → Record fs → List Scalar
  | _, nil => []
  | _, cons (f := f) v r => f.scalars v ++ r.scalars

namespace Layout

/-- The number of bytes of scalars of the given types. -/
def width : List ScalarType → Nat
  | [] => 0
  | t :: ts => t.size + width ts

/-- Slots for scalars of the given types, one right after the other. -/
def place (offset : Nat) : List ScalarType → List Slot
  | [] => []
  | t :: ts => ⟨t, offset⟩ :: place (offset + t.size) ts

/-- The types of the scalars in the given fields. -/
def types (fs : List Field) : List ScalarType := fs.flatMap Field.types

/-- The slots of a message with the given fields. -/
def slots (fs : List Field) : List Slot := place 0 (types fs)

/-- The scalars have the types and the bytes at the slots. -/
def AreAt (data : List UInt8) (ss : List Slot) (xs : List Scalar) : Prop :=
  xs.map Scalar.type = ss.map Slot.type ∧ xs.map Scalar.bytes = ss.map (Slot.bytes data)

/-! ### Types and sizes -/

/-- The scalars of a field have the types of the field. -/
theorem map_type_fieldScalars (f : Field) (v : f.Value) :
    (f.scalars v).map Scalar.type = f.types := by
  rcases f with ⟨t, name, _ | n⟩
  · rfl
  · simp only [Field.scalars, Field.types, Field.count, List.map_map, Function.comp_def,
      List.map_const', Vector.length_toList]

/-- The scalars of a record have the types of the fields. -/
theorem map_type_scalars {fs : List Field} (r : Record fs) :
    r.scalars.map Scalar.type = types fs := by
  induction r with
  | nil => rfl
  | cons v r ih =>
    rw [Record.scalars, List.map_append, map_type_fieldScalars, ih]
    rfl

/-- Sizes are added up in a row. -/
theorem width_append (ts ts' : List ScalarType) : width (ts ++ ts') = width ts + width ts' := by
  induction ts with
  | nil => simp [width]
  | cons t ts ih =>
    rw [List.cons_append, width, width, ih]
    omega

/-- Scalars of one type take its size each. -/
theorem width_replicate (n : Nat) (t : ScalarType) : width (List.replicate n t) = t.size * n := by
  induction n with
  | zero => rfl
  | succ n ih =>
    rw [List.replicate_succ, width, ih, Nat.mul_succ]
    omega

/-- The scalars of fields take the exact size of the fields. -/
theorem width_types (fs : List Field) : width (types fs) = totalSize fs := by
  induction fs with
  | nil => rfl
  | cons f fs ih =>
    have hs : types (f :: fs) = f.types ++ types fs := rfl
    rw [hs, width_append, ih, Field.types, width_replicate, totalSize]

/-- A scalar has as many bytes as its type. -/
theorem length_bytes (x : Scalar) : x.bytes.length = x.type.size := ScalarType.length_encode _ _

/-- Scalars in a row have as many bytes as their types. -/
theorem length_flatMap_bytes (xs : List Scalar) :
    (xs.flatMap Scalar.bytes).length = width (xs.map Scalar.type) := by
  induction xs with
  | nil => rfl
  | cons x xs ih =>
    rw [List.flatMap_cons, List.length_append, length_bytes, ih]
    rfl

/-! ### Slots in a row -/

/-- There is a slot for each type. -/
theorem map_type_place (offset : Nat) (ts : List ScalarType) :
    (place offset ts).map Slot.type = ts := by
  induction ts generalizing offset with
  | nil => rfl
  | cons t ts ih => rw [place, List.map_cons, ih]

/-- Slots in a row end where the last one does, or before. -/
theorem offset_add_size_le (offset : Nat) (ts : List ScalarType) :
    ∀ s ∈ place offset ts, s.offset + s.type.size ≤ offset + width ts := by
  induction ts generalizing offset with
  | nil => simp [place]
  | cons t ts ih =>
    rw [place, width]
    refine List.forall_mem_cons.mpr ⟨by simp only; omega, fun s hs ↦ ?_⟩
    have hi := ih (offset + t.size) s hs
    omega

/-- Slots in a row have the bytes from their start to their end. -/
theorem flatMap_bytes_place (data : List UInt8) (offset : Nat) (ts : List ScalarType) :
    (place offset ts).flatMap (Slot.bytes data) = (data.drop offset).take (width ts) := by
  induction ts generalizing offset with
  | nil => rfl
  | cons t ts ih =>
    rw [place, List.flatMap_cons, ih, width, List.take_add, List.drop_drop]
    rfl

/-- Scalars in a row are at the slots that start where they do. -/
theorem areAt_append (front : List UInt8) (xs : List Scalar) (back : List UInt8) :
    AreAt (front ++ (xs.flatMap Scalar.bytes ++ back)) (place front.length (xs.map Scalar.type))
      xs := by
  refine ⟨(map_type_place _ _).symm, ?_⟩
  induction xs generalizing front with
  | nil => rfl
  | cons x xs ih =>
    have hx : ((x.bytes ++ (xs.flatMap Scalar.bytes ++ back)).take x.type.size) = x.bytes :=
      List.take_left' (length_bytes x)
    have hi := ih (front ++ x.bytes)
    rw [List.length_append, length_bytes] at hi
    simp only [List.map_cons, place, List.flatMap_cons, List.append_assoc, Slot.bytes,
      List.drop_left, hx] at hi ⊢
    rw [hi]

/-! ### What determines a record -/

/-- A scalar is determined by its type and its bytes. -/
theorem scalar_eq {x y : Scalar} (ht : x.type = y.type) (hb : x.bytes = y.bytes) : x = y := by
  rcases x with ⟨t, v⟩
  rcases y with ⟨t', v'⟩
  simp only at ht
  subst ht
  have hd := congrArg t.decode hb
  simp only [Scalar.bytes, ScalarType.decode_encode] at hd
  cases hd
  rfl

/-- Scalars are determined by the bytes at their slots. -/
theorem AreAt.unique {data : List UInt8} {ss : List Slot} {xs ys : List Scalar}
    (hx : AreAt data ss xs) (hy : AreAt data ss ys) : xs = ys := by
  have ht : xs.map Scalar.type = ys.map Scalar.type := hx.1.trans hy.1.symm
  have hb : xs.map Scalar.bytes = ys.map Scalar.bytes := hx.2.trans hy.2.symm
  clear hx hy
  induction xs generalizing ys with
  | nil =>
    cases ys with
    | nil => rfl
    | cons y ys => cases ht
  | cons x xs ih =>
    cases ys with
    | nil => cases ht
    | cons y ys =>
      obtain ⟨ht, hts⟩ := List.cons.inj ht
      obtain ⟨hb, hbs⟩ := List.cons.inj hb
      rw [scalar_eq ht hb, ih hts hbs]

/-- The value of a field is determined by its scalars. -/
theorem fieldScalars_injective {f : Field} {v v' : f.Value}
    (h : f.scalars v = f.scalars v') : v = v' := by
  rcases f with ⟨t, name, _ | n⟩
  · cases h
    rfl
  · apply Vector.toList_inj.mp
    apply List.map_inj_right (f := Scalar.mk t) _ |>.mp h
    intro a b hab
    cases hab
    rfl

/-- A record is determined by its scalars. -/
theorem scalars_injective {fs : List Field} {r r' : Record fs} (h : r.scalars = r'.scalars) :
    r = r' := by
  induction r with
  | nil =>
    cases r'
    rfl
  | @cons f fs v r ih =>
    cases r' with
    | cons v' r' =>
      have hlength : (f.scalars v).length = (f.scalars v').length := by
        have ht := (map_type_fieldScalars f v).trans (map_type_fieldScalars f v').symm
        have hl := congrArg List.length ht
        rwa [List.length_map, List.length_map] at hl
      obtain ⟨hv, hr⟩ := List.append_inj h hlength
      rw [fieldScalars_injective hv, ih hr]

end Layout

end WireSchema
