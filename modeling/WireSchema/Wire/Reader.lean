import WireSchema.Wire.Scalar

/-!
# Reading from a buffer

A reader takes values one after the other from a byte string. A value that is not all there, or
whose byte is not one of its type, is refused and does not move the reader. An array is read into
the place of old values, element by element up to the first that is refused.
-/

namespace WireSchema

/-- A byte string and the number of bytes read from its start. -/
structure Reader where
  data : List UInt8
  index : Nat
  deriving DecidableEq, Repr

namespace Reader

/-- A reader at the start of a byte string. -/
def ofData (data : List UInt8) : Reader := ⟨data, 0⟩

/-- The number of bytes left. -/
def remaining (r : Reader) : Nat := r.data.length - r.index

/-- Whether all bytes are read. -/
def isFinished (r : Reader) : Bool := r.index == r.data.length

/-- Reads a value. -/
def read (r : Reader) (t : ScalarType) : Except WireError t.Value × Reader :=
  if r.remaining < t.size then (.error (.underflow t.size r.remaining), r)
  else
    match t.decode ((r.data.drop r.index).take t.size) with
    | .error e => (.error e, r)
    | .ok v => (.ok v, { r with index := r.index + t.size })

/-- What comes of reading an array: the values it holds now, and the reader after it. -/
structure ArrayRead (t : ScalarType) where
  result : Except WireError Unit
  values : List t.Value
  reader : Reader

/-- Reads as many values as there are old ones, each into the place of one. -/
def readArray (r : Reader) (t : ScalarType) : List t.Value → ArrayRead t
  | [] => ⟨.ok (), [], r⟩
  | old :: olds =>
    match r.read t with
    | (.error e, r') => ⟨.error e, old :: olds, r'⟩
    | (.ok v, r') =>
      let rest := r'.readArray t olds
      ⟨rest.result, v :: rest.values, rest.reader⟩

/-- Checks that all bytes are read. -/
def finish (r : Reader) : Except WireError Unit :=
  if r.isFinished then .ok () else .error (.trailingBytes r.remaining)

/-- Reading an array keeps the number of its values. -/
theorem length_readArray (r : Reader) (t : ScalarType) (olds : List t.Value) :
    (r.readArray t olds).values.length = olds.length := by
  induction olds generalizing r with
  | nil => rfl
  | cons old olds ih =>
    unfold readArray
    split
    · rfl
    · simp [ih]

end Reader

end WireSchema
