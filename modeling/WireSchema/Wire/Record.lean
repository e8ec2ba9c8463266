import WireSchema.Schema.Message
import WireSchema.Wire.Reader
import WireSchema.Wire.Span

/-!
# Records

A record holds a value for each field of a message: a scalar, or as many scalars as the array is
long. Its bytes are those of its scalars in the order of the fields. Decoding goes into a record
and replaces its values one by one, so the values before a failure are new and the rest are as they
were.
-/

namespace WireSchema

/-- The values of a field. -/
abbrev Field.Value (f : Field) : Type :=
  match f.length with
  | none => f.type.Value
  | some n => Vector f.type.Value n.toNat

namespace Field

/-- The value whose scalars are all zero. -/
def zero : (f : Field) → f.Value
  | ⟨t, _, none⟩ => t.zero
  | ⟨t, _, some n⟩ => Vector.replicate n.toNat t.zero

/-- Whether two values are equal as their numbers compare. -/
def equals : (f : Field) → f.Value → f.Value → Bool
  | ⟨t, _, none⟩, x, y => t.equals x y
  | ⟨t, _, some _⟩, x, y => (x.toList.zip y.toList).all fun (a, b) ↦ t.equals a b

/-- Writes the value of a field. -/
def write (w : Writer) : (f : Field) → f.Value → Except WireError Unit × Writer
  | ⟨t, _, none⟩, v => w.write t v
  | ⟨t, _, some _⟩, v => w.writeArray t v.toList

/-- Writing a field never changes the size of the buffer. -/
theorem capacity_write (w : Writer) (f : Field) (v : f.Value) :
    (f.write w v).2.capacity = w.capacity := by
  rcases f with ⟨t, name, _ | n⟩
  · exact w.capacity_write t v
  · exact w.capacity_writeArray t v.toList

/-- What comes of reading a field: the value it holds now, and the reader after it. -/
structure FieldRead (f : Field) where
  result : Except WireError Unit
  value : f.Value
  reader : Reader

/-- Reads a field into the place of its old value. -/
def read (r : Reader) : (f : Field) → f.Value → FieldRead f
  | ⟨t, _, none⟩, old =>
    match r.read t with
    | (.error e, r') => ⟨.error e, old, r'⟩
    | (.ok v, r') => ⟨.ok (), v, r'⟩
  | ⟨t, _, some _⟩, old =>
    let a := r.readArray t old.toList
    ⟨a.result, ⟨a.values.toArray, by simp [a, Reader.length_readArray]⟩, a.reader⟩

end Field

/-- A value for each of the fields. -/
inductive Record : List Field → Type
  | nil : Record []
  | cons {f : Field} {fs : List Field} (value : f.Value) (rest : Record fs) : Record (f :: fs)

namespace Record

/-- The record whose scalars are all zero. -/
def zero : (fs : List Field) → Record fs
  | [] => nil
  | f :: fs => cons f.zero (zero fs)

/-- Whether two records are equal as their numbers compare. -/
def equals : {fs : List Field} → Record fs → Record fs → Bool
  | _, nil, nil => true
  | _, cons (f := f) v r, cons v' r' => f.equals v v' && r.equals r'

/-- Writes the values of the fields in order. -/
def write : {fs : List Field} → Record fs → Writer → Except WireError Unit × Writer
  | _, nil, w => (.ok (), w)
  | _, cons (f := f) v r, w =>
    match f.write w v with
    | (.error e, w') => (.error e, w')
    | (.ok (), w') => r.write w'

/-- Writes the values of the fields in order, and checks that no more was written than the buffer
holds. -/
def writeWithin {fs : List Field} (r : Record fs) (w : Writer) : Except WireError Unit × Writer :=
  match r.write w with
  | (.error e, w') => (.error e, w')
  | (.ok (), w') =>
    if w.capacity < w'.index then (.error (.overflow w'.index w.capacity), w') else (.ok (), w')

/-- Encodes a record into a span. -/
def encode {fs : List Field} (r : Record fs) (s : Span) : Except WireError Unit × Span :=
  s.write r.writeWithin

/-- The bytes of a record: it is encoded into a new storage of its size. -/
def toBytes {fs : List Field} (r : Record fs) : Except WireError (List UInt8) :=
  match r.encode (Span.ofStorage (List.replicate (totalSize fs) 0)) with
  | (.error e, _) => .error e
  | (.ok (), s) => .ok s.bytes

/-- What comes of reading a record: the values it holds now, and the reader after it. -/
structure RecordRead (fs : List Field) where
  result : Except WireError Unit
  record : Record fs
  reader : Reader

/-- Reads the fields in order, each into the place of its old value. -/
def read : {fs : List Field} → Record fs → Reader → RecordRead fs
  | _, nil, r => ⟨.ok (), nil, r⟩
  | _, cons (f := f) old olds, r =>
    let a := f.read r old
    match a.result with
    | .error e => ⟨.error e, cons a.value olds, a.reader⟩
    | .ok () =>
      let b := olds.read a.reader
      ⟨b.result, cons a.value b.record, b.reader⟩

/-- Decodes bytes into a record; nothing may be left of them. -/
def decode {fs : List Field} (old : Record fs) (bytes : List UInt8) :
    Except WireError Unit × Record fs :=
  let a := old.read (Reader.ofData bytes)
  match a.result with
  | .error e => (.error e, a.record)
  | .ok () => (a.reader.finish, a.record)

/-- The record of the given bytes. -/
def ofBytes (fs : List Field) (bytes : List UInt8) : Except WireError (Record fs) :=
  match (zero fs).decode bytes with
  | (.error e, _) => .error e
  | (.ok (), r) => .ok r

end Record

end WireSchema
