import WireSchema.Catalog
import WireSchema.Proofs.Codegen.SizeExpression
import WireSchema.Proofs.Schema.Acceptance
import WireSchema.Proofs.Text.Lines
import WireSchema.Proofs.Wire.Encoding

/-!
# The payload size

The size of a payload is computed when the fields are checked, for a descriptor, in the expression
of either target language, and by encoding a record. The main statement says that for an accepted
schema all of these have one value, and that every number on the way to it fits in 32 bits.
-/

namespace WireSchema

open Text

/-- The size of fields where no size goes past the given limit. -/
def saturatedSize (limit : Nat) (fields : List Field) : Nat :=
  fields.foldl (fun total f ↦ min (total + min (f.type.size * f.count) limit) limit) 0

private theorem foldl_min {limit : Nat} {fields : List Field} {total : Nat}
    (h : total + totalSize fields ≤ limit) :
    fields.foldl (fun total f ↦ min (total + min (f.type.size * f.count) limit) limit) total =
      total + totalSize fields := by
  induction fields generalizing total with
  | nil => rfl
  | cons f fields ih =>
    rw [totalSize] at h
    have hstep : min (total + min (f.type.size * f.count) limit) limit =
        total + f.type.size * f.count := by omega
    rw [List.foldl_cons, hstep, ih (by omega), totalSize, Nat.add_assoc]

/-- A limit that the exact size keeps to changes nothing. -/
theorem saturatedSize_eq {limit : Nat} {fields : List Field} (h : totalSize fields ≤ limit) :
    saturatedSize limit fields = totalSize fields := by
  rw [saturatedSize, foldl_min (by rwa [Nat.zero_add]), Nat.zero_add]

/-! ### Bounds -/

/-- The size of the first fields is at most that of all. -/
theorem totalSize_take_le (fields : List Field) (k : Nat) :
    totalSize (fields.take k) ≤ totalSize fields := by
  induction fields generalizing k with
  | nil => exact Nat.le_of_eq (congrArg totalSize List.take_nil)
  | cons f fields ih =>
    cases k with
    | zero => exact Nat.zero_le _
    | succ k =>
      have hk := ih k
      rw [List.take_succ_cons, totalSize, totalSize]
      omega

/-- The size of one field is at most that of all. -/
theorem size_le_totalSize {fields : List Field} {f : Field} (h : f ∈ fields) :
    f.type.size * f.count ≤ totalSize fields := by
  induction fields with
  | nil => cases h
  | cons g fields ih =>
    rw [totalSize]
    rcases List.mem_cons.mp h with rfl | h
    · exact Nat.le_add_right _ _
    · exact Nat.le_trans (ih h) (Nat.le_add_left _ _)

namespace Grammar

/-- A field has at least one scalar. -/
theorem Declares.count_pos {s : List Char} {f : Field} (h : Declares s f) : 0 < f.count := by
  obtain ⟨_, _, _, he⟩ := h
  cases he with
  | scalar => exact Nat.one_pos
  | array _ _ hn _ => exact Nat.pos_of_ne_zero fun h0 ↦ hn (UInt32.toNat_inj.mp h0)

/-- The fields of a body have at least one scalar each. -/
theorem Pieces.count_pos {pieces : List (List Char)} {fields : List Field}
    (h : Pieces pieces fields) : ∀ f ∈ fields, 0 < f.count := by
  induction h with
  | nil => simp
  | blank _ _ ih => exact ih
  | field _ hd _ _ ih => exact List.forall_mem_cons.mpr ⟨hd.count_pos, ih⟩

/-- The fields of a schema have at least one scalar each. -/
theorem Schema.count_pos {s : List Char} {structName : String} {package : Option String}
    {fields : List Field} (h : Schema s structName package fields) : ∀ f ∈ fields, 0 < f.count := by
  cases h with
  | intro _ _ _ _ hbody _ _ => exact hbody.pieces.count_pos

end Grammar

/-- Fields with a scalar take at least one byte. -/
theorem totalSize_pos {fields : List Field} (hne : fields ≠ []) (h : ∀ f ∈ fields, 0 < f.count) :
    0 < totalSize fields := by
  obtain ⟨f, rest, rfl⟩ := List.exists_cons_of_ne_nil hne
  have hf := Nat.mul_pos f.type.size_pos (h f List.mem_cons_self)
  exact Nat.lt_of_lt_of_le hf (size_le_totalSize List.mem_cons_self)

/-! ### Generated constants -/

/-- The line of a C++ header that gives the payload size. -/
def CppHeader.sizeLine (fields : List Field) : String :=
  "    static const size_t kPayloadSize = " ++ sizeExpression fields ++ ";"

/-- The line of a Rust module that gives the payload size. -/
def RustModule.sizeLine (fields : List Field) : String :=
  "    pub const PAYLOAD_SIZE: usize = " ++ sizeExpression fields ++ ";"

/-- A C++ header gives the payload size in a line of its own. -/
theorem CppHeader.hasLine_sizeLine (m : Message) (sourceName : Option String) :
    HasLine (render m sourceName) (sizeLine m.fields) := by
  have hmem : sizeLine m.fields ∈ lines m sourceName := by
    unfold lines sizeLine
    iterate 4 apply List.mem_append_left
    apply List.mem_append_right
    iterate 2 apply List.mem_cons_of_mem
    exact List.mem_cons_self
  refine hasLine_joinLines hmem ?_
  have hexpression : '\n' ∉ (sizeExpression m.fields).toList := by
    rw [SizeDialect.toList_cppExpression]
    exact SizeDialect.cpp.not_mem_expression _ (by decide) (by decide) (by decide) (by decide)
  exact not_mem_toList_append (not_mem_toList_append (by decide) hexpression) (by decide)

/-- A Rust module gives the payload size in a line of its own. -/
theorem RustModule.hasLine_sizeLine {m : Message} {sourceName : Option String} {code : String}
    (h : render m sourceName = .ok code) : HasLine code (sizeLine m.fields) := by
  obtain ⟨name, _, h⟩ := bind_eq_ok_iff.mp h
  obtain ⟨members, _, h⟩ := bind_eq_ok_iff.mp h
  cases h
  have himpl : sizeLine m.fields ∈ implLines name m members := by
    unfold implLines sizeLine
    iterate 4 apply List.mem_append_left
    iterate 2 apply List.mem_cons_of_mem
    exact List.mem_cons_self
  have hmem : sizeLine m.fields ∈ lines m sourceName name members := by
    unfold lines
    iterate 2 apply List.mem_append_left
    exact List.mem_append_right _ himpl
  refine hasLine_joinLines hmem ?_
  have hexpression : '\n' ∉ (sizeExpression m.fields).toList := by
    rw [SizeDialect.toList_rustExpression]
    exact SizeDialect.rust.not_mem_expression _ (by decide) (by decide) (by decide) (by decide)
  exact not_mem_toList_append (not_mem_toList_append (by decide) hexpression) (by decide)

/-! ### One size -/

/-- Every computation of the payload size has the same value, and the numbers on the way to it fit
in 32 bits. -/
structure Message.HasSize (m : Message) (n : Nat) : Prop where
  /-- The fields are checked with the size. -/
  checked : ∃ w, payloadWord? m.fields = some w ∧ w.toNat = n
  /-- The descriptor has the size, which stops at the largest number of 64 bits. -/
  described : m.payloadSize = n
  /-- The size is the same if it stops at the largest number of 32 bits or more. -/
  saturated : ∀ limit, UInt32.size - 1 ≤ limit → saturatedSize limit m.fields = n
  /-- A C++ header has an expression for the size. -/
  cpp : SizeDialect.cpp.value? (CppHeader.sizeExpression m.fields) = some n ∧
    ∀ sourceName, HasLine (CppHeader.render m sourceName) (CppHeader.sizeLine m.fields)
  /-- A Rust module has an expression for the size. -/
  rust : SizeDialect.rust.value? (RustModule.sizeExpression m.fields) = some n ∧
    ∀ sourceName code, RustModule.render m sourceName = .ok code →
      HasLine code (RustModule.sizeLine m.fields)
  /-- Every record has as many bytes. -/
  encoded : ∀ r : Record m.fields, ∃ data, r.toBytes = .ok data ∧ data.length = n
  /-- Lengths and their products with the sizes of types fit. -/
  product_lt : ∀ f ∈ m.fields, f.count < UInt32.size ∧ f.type.size * f.count < UInt32.size
  /-- Partial sums fit. -/
  partialSum_lt : ∀ k, totalSize (m.fields.take k) < UInt32.size

namespace Message

/-- The payload of an accepted schema has one size, which a number of 32 bits holds, wherever it is
computed. -/
theorem exists_size_of_parse {source : String} {m : Message} (h : parse source = .ok m) :
    ∃ n, 0 < n ∧ n < UInt32.size ∧ m.HasSize n := by
  obtain ⟨hschema, hne, _, hle, _⟩ := parse_eq_ok_iff.mp h
  have hlt : totalSize m.fields < UInt32.size := Nat.lt_of_le_of_lt hle (by decide)
  refine ⟨totalSize m.fields, totalSize_pos hne hschema.count_pos, hlt, ?_⟩
  refine
    { checked := ?_
      described := m.payloadSize_eq (Nat.le_trans hle (by decide))
      saturated := fun limit hlimit ↦ saturatedSize_eq (by omega)
      cpp := ⟨SizeDialect.cpp.value?_of_expression (SizeDialect.toList_cppExpression _) hne hlt,
        CppHeader.hasLine_sizeLine m⟩
      rust := ⟨SizeDialect.rust.value?_of_expression (SizeDialect.toList_rustExpression _) hne hlt,
        fun _ _ ↦ RustModule.hasLine_sizeLine⟩
      encoded := fun r ↦ ⟨r.wire, r.toBytes_eq, r.length_wire⟩
      product_lt := fun f hf ↦ ⟨f.count_lt, Nat.lt_of_le_of_lt (size_le_totalSize hf) hlt⟩
      partialSum_lt := fun k ↦ Nat.lt_of_le_of_lt (totalSize_take_le m.fields k) hlt }
  have hword : (UInt64.ofNat (totalSize m.fields)).toNat = totalSize m.fields :=
    UInt64.toNat_ofNat_of_lt' (Nat.lt_trans hlt (by decide))
  exact ⟨_, payloadWord?_eq_some_iff.mpr hword.symm, hword⟩

/-- The command to a lamp takes twelve bytes. -/
theorem hasSize_ledCommand :
    parse Catalog.ledCommandText = .ok Catalog.ledCommand ∧ Catalog.ledCommand.HasSize 12 := by
  obtain ⟨n, _, _, hsize⟩ := exists_size_of_parse Catalog.parse_ledCommandText
  have hn : Catalog.ledCommand.payloadSize = 12 := by decide
  rw [hsize.described] at hn
  subst hn
  exact ⟨Catalog.parse_ledCommandText, hsize⟩

end Message

end WireSchema
