/-!
# Scalar types

The eleven types that a field of a schema may have, their names in schemas and their sizes on the
wire. The main statement says that a name determines its type.
-/

namespace WireSchema

/-- The type of a field, or of each element of an array field. -/
inductive ScalarType
  | uint8 | int8 | uint16 | int16 | uint32 | int32 | uint64 | int64 | bool | float | double
  deriving DecidableEq, Repr, Inhabited

namespace ScalarType

/-- All scalar types, narrow integers first. -/
def all : List ScalarType :=
  [uint8, int8, uint16, int16, uint32, int32, uint64, int64, bool, float, double]

/-- The name of the type in schemas. -/
def name : ScalarType → String
  | uint8 => "uint8_t"
  | int8 => "int8_t"
  | uint16 => "uint16_t"
  | int16 => "int16_t"
  | uint32 => "uint32_t"
  | int32 => "int32_t"
  | uint64 => "uint64_t"
  | int64 => "int64_t"
  | bool => "bool"
  | float => "float"
  | double => "double"

/-- The type of the given name. -/
def ofName? (name : String) : Option ScalarType := all.find? fun t ↦ t.name == name

/-- The number of bytes a value takes on the wire. -/
def size : ScalarType → Nat
  | uint8 | int8 | bool => 1
  | uint16 | int16 => 2
  | uint32 | int32 | float => 4
  | uint64 | int64 | double => 8

/-- Every type is listed. -/
theorem mem_all (t : ScalarType) : t ∈ all := by
  cases t <;> decide

/-- The name of a type is looked up to that type. -/
theorem ofName?_name (t : ScalarType) : ofName? t.name = some t := by
  cases t <;> decide

/-- Only the name of a type is looked up to it. -/
theorem ofName?_eq_some_iff {name : String} {t : ScalarType} :
    ofName? name = some t ↔ name = t.name := by
  constructor
  · intro h
    unfold ofName? at h
    have ht := List.find?_some h
    exact (eq_of_beq ht).symm
  · rintro rfl
    exact ofName?_name t

/-- A name is the name of one type only. -/
theorem name_inj {t t' : ScalarType} : t.name = t'.name ↔ t = t' := by
  constructor
  · intro h
    have ht := ofName?_name t
    rw [h, ofName?_name] at ht
    exact (Option.some.inj ht).symm
  · exact congrArg name

/-- A value takes at least one byte. -/
theorem size_pos (t : ScalarType) : 0 < t.size := by
  cases t <;> decide

/-- A value takes at most eight bytes. -/
theorem size_le (t : ScalarType) : t.size ≤ 8 := by
  cases t <;> decide

end ScalarType

end WireSchema
