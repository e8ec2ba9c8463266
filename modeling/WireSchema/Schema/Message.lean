import WireSchema.Schema.ScalarType

/-!
# Message descriptors

A descriptor is what a schema says: the name of the message, its package, its fields in wire order,
the canonical form of the text and its hash. Sizes are counted in bytes and stop at the largest
64-bit number instead of going past it; `payloadSize_eq` says that this never shows while the exact
sum fits.
-/

namespace WireSchema

/-- A field: a scalar, or an array of a fixed number of scalars. -/
structure Field where
  type : ScalarType
  name : String
  length : Option UInt32
  deriving DecidableEq, Repr, Inhabited

/-- The largest size that is told apart from larger ones. -/
def maxSize : Nat := UInt64.size - 1

/-- A size, or the largest one if it is larger. -/
def saturate (n : Nat) : Nat := min n maxSize

namespace Field

/-- The number of scalars in the field. -/
def count (f : Field) : Nat :=
  match f.length with
  | none => 1
  | some n => n.toNat

/-- The number of bytes the field takes on the wire. -/
def wireSize (f : Field) : Nat := saturate (f.type.size * f.count)

/-- A field has fewer than 2^32 scalars. -/
theorem count_lt (f : Field) : f.count < UInt32.size := by
  unfold count
  split
  · decide
  · exact UInt32.toNat_lt_size _

/-- A single field never reaches the limit. -/
theorem wireSize_eq (f : Field) : f.wireSize = f.type.size * f.count := by
  have h := Nat.mul_le_mul f.type.size_le (Nat.le_of_lt f.count_lt)
  simp only [UInt32.size] at h
  simp only [wireSize, saturate, maxSize, UInt64.size]
  omega

end Field

/-- The exact number of bytes that the fields take together. -/
def totalSize : List Field → Nat
  | [] => 0
  | f :: fs => f.type.size * f.count + totalSize fs

/-- What one schema describes. -/
structure Message where
  structName : String
  package : Option String
  fields : List Field
  canonicalText : String
  hash : UInt32
  deriving DecidableEq, Repr, Inhabited

namespace Message

/-- The number of bytes all fields take on the wire. -/
def payloadSize (m : Message) : Nat :=
  m.fields.foldl (fun total f ↦ saturate (total + f.wireSize)) 0

/-- The parts of the package name, outermost first; none without a package. -/
def packageSegments (m : Message) : List String :=
  match m.package with
  | none => []
  | some p => (p.toList.splitOn '.').map String.ofList

private theorem foldl_saturate (fs : List Field) (total : Nat)
    (h : total + totalSize fs ≤ maxSize) :
    fs.foldl (fun total f ↦ saturate (total + f.wireSize)) total = total + totalSize fs := by
  induction fs generalizing total with
  | nil => rfl
  | cons f fs ih =>
    simp only [totalSize, ← f.wireSize_eq] at h
    have hs : saturate (total + f.wireSize) = total + f.wireSize := by
      simp only [saturate]
      omega
    rw [List.foldl_cons, hs, ih _ (by omega), totalSize, ← f.wireSize_eq, Nat.add_assoc]

/-- The payload is the exact size of the fields as long as that is told apart from larger ones. -/
theorem payloadSize_eq (m : Message) (h : totalSize m.fields ≤ maxSize) :
    m.payloadSize = totalSize m.fields := by
  have hf := foldl_saturate m.fields 0 (by omega)
  rwa [Nat.zero_add] at hf

end Message

end WireSchema
