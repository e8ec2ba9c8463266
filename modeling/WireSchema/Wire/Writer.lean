import WireSchema.Wire.Scalar

/-!
# Writing to a buffer

A writer puts values one after the other into a buffer of fixed size. A value that does not fit is
refused and changes nothing, so a smaller one may still follow; an array is written element by
element up to the first that does not fit. The main statements say that the size of the buffer
never changes and that an accepted value takes the bytes at the index.
-/

namespace WireSchema

/-- A buffer and the number of bytes written to its start. -/
structure Writer where
  storage : List UInt8
  index : Nat
  deriving DecidableEq, Repr

namespace Writer

/-- A writer at the start of a buffer. -/
def ofStorage (storage : List UInt8) : Writer := ⟨storage, 0⟩

/-- The number of bytes the buffer holds. -/
def capacity (w : Writer) : Nat := w.storage.length

/-- The writer with the bytes put at its index. -/
def put (w : Writer) (bytes : List UInt8) : Writer :=
  ⟨w.storage.take w.index ++ bytes ++ w.storage.drop (w.index + bytes.length),
    w.index + bytes.length⟩

/-- Writes a value if it fits. -/
def write (w : Writer) (t : ScalarType) (v : t.Value) : Except WireError Unit × Writer :=
  if w.index + t.size ≤ w.capacity then (.ok (), w.put (t.encode v))
  else (.error (.overflow (w.index + t.size) w.capacity), w)

/-- Writes values in order up to the first that does not fit. -/
def writeArray (w : Writer) (t : ScalarType) : List t.Value → Except WireError Unit × Writer
  | [] => (.ok (), w)
  | v :: vs =>
    match w.write t v with
    | (.error e, w') => (.error e, w')
    | (.ok (), w') => w'.writeArray t vs

/-- Bytes that fit leave the size of the buffer as it is. -/
theorem capacity_put {w : Writer} {bytes : List UInt8} (h : w.index + bytes.length ≤ w.capacity) :
    (w.put bytes).capacity = w.capacity := by
  simp only [capacity] at h
  simp only [put, capacity, List.length_append, List.length_take, List.length_drop]
  omega

/-- Writing never changes the size of the buffer. -/
theorem capacity_write (w : Writer) (t : ScalarType) (v : t.Value) :
    (w.write t v).2.capacity = w.capacity := by
  unfold write
  split
  next h => exact capacity_put (by rwa [ScalarType.length_encode])
  next => rfl

/-- Writing an array never changes the size of the buffer. -/
theorem capacity_writeArray (w : Writer) (t : ScalarType) (vs : List t.Value) :
    (w.writeArray t vs).2.capacity = w.capacity := by
  induction vs generalizing w with
  | nil => rfl
  | cons v vs ih =>
    have h := capacity_write w t v
    unfold writeArray
    split
    next e w' he => rwa [he] at h
    next w' he =>
      rw [he] at h
      rw [ih, h]

end Writer

end WireSchema
