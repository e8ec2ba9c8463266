import WireSchema.Proofs.Wire.Decoding

/-!
# Runs of a reader

A reader may be called again after a call that failed, so a run is any list of calls, of which some
fail. Whatever they answer, the bytes before the index are those of the scalars taken so far, one
after the other; the scalars that an array takes before one is refused count as well. The main
statement says this of every run, and what the next call answers and changes.
-/

namespace WireSchema

open Layout

/-- What is wrong at a slot: its bytes are not all there, or they are, and the byte of a boolean is
neither zero nor one. -/
theorem Slot.fault?_eq_some_iff {data : List UInt8} {s : Slot} {e : WireError} :
    s.fault? data = some e ↔
      (data.length - s.offset < s.type.size ∧
        e = .underflow s.type.size (data.length - s.offset)) ∨
      (s.type.size ≤ data.length - s.offset ∧ s.type = .bool ∧
        ∃ byte, data[s.offset]? = some byte ∧ byte ≠ 0 ∧ byte ≠ 1 ∧ e = .invalidBool byte) := by
  have hp := s.type.size_pos
  unfold fault?
  by_cases hlt : data.length < s.offset + s.type.size
  · have hshort : data.length - s.offset < s.type.size := by omega
    have hle : ¬s.type.size ≤ data.length - s.offset := Nat.not_le.mpr hshort
    simp only [hlt, if_true, hshort, hle, true_and, false_and, or_false, Option.some.injEq]
    exact eq_comm
  · have hshort : ¬data.length - s.offset < s.type.size := by omega
    have hget : data[s.offset]? = some (s.byte data) := by
      have hoffset : s.offset < data.length := by omega
      rw [byte, List.getD_eq_getElem?_getD, List.getElem?_eq_getElem hoffset]
      rfl
    simp only [hlt, if_false, hshort, false_and, false_or, Nat.not_lt.mp hshort, true_and, hget,
      Option.some.injEq, exists_eq_left', Option.ite_none_right_eq_some, and_assoc,
      @eq_comm _ e]

namespace Reader

/-- A call of a reader: for a scalar, for an array into the place of old values, or for the check
that no bytes are left. -/
inductive Call
  | scalar (t : ScalarType)
  | array (t : ScalarType) (olds : List t.Value)
  | finish

/-- The types of the scalars that a call asks for. -/
def Call.types : Call → List ScalarType
  | scalar t => [t]
  | array t olds => olds.map fun _ ↦ t
  | finish => []

/-- The reader after a call, whatever that answers. -/
def call (r : Reader) : Call → Reader
  | .scalar t => (r.read t).2
  | .array t olds => (r.readArray t olds).reader
  | .finish => r

/-- The reader after some calls, whatever they answer. -/
def run (r : Reader) : List Call → Reader
  | [] => r
  | c :: cs => (r.call c).run cs

/-- The scalars that are taken when some are asked for: those before the first that is refused. -/
def taken (r : Reader) : List ScalarType → List Scalar
  | [] => []
  | t :: ts =>
    match r.read t with
    | (.error _, _) => []
    | (.ok v, r') => ⟨t, v⟩ :: r'.taken ts

/-- The scalars that are taken in a run. -/
def takenInRun (r : Reader) : List Call → List Scalar
  | [] => []
  | c :: cs => r.taken c.types ++ (r.call c).takenInRun cs

/-- The reader has taken the scalars from the start of the byte string: it is within it, and their
bytes are those before the index. -/
structure HasTaken (data : List UInt8) (xs : List Scalar) (r : Reader) : Prop where
  data_eq : r.data = data
  index_add_remaining : r.index + r.remaining = data.length
  take_index : data.take r.index = xs.flatMap Scalar.bytes

/-- The reader behind some bytes. -/
def behind (data bytes : List UInt8) : Reader := ⟨data, bytes.length⟩

variable {data bytes : List UInt8}

/-- A reader behind the bytes of scalars has taken these. -/
theorem hasTaken_behind {xs : List Scalar} (h : xs.flatMap Scalar.bytes <+: data) :
    HasTaken data xs (behind data (xs.flatMap Scalar.bytes)) where
  data_eq := rfl
  index_add_remaining := Nat.add_sub_cancel' h.length_le
  take_index := (List.prefix_iff_eq_take.mp h).symm

/-! ### One scalar -/

/-- A slot that is not at fault has the bytes of a scalar, and the reader goes behind them. -/
theorem exists_read_behind (h : bytes <+: data) {t : ScalarType}
    (hfault : Slot.fault? data ⟨t, bytes.length⟩ = none) :
    ∃ v, (behind data bytes).read t = (.ok v, behind data (bytes ++ t.encode v)) ∧
      bytes ++ t.encode v <+: data := by
  obtain ⟨v, hread, hv⟩ := Slot.exists_read hfault
  obtain ⟨rest, rfl⟩ := h
  have hrest : t.encode v = rest.take t.size := by
    rw [hv, Slot.bytes, List.drop_left]
  refine ⟨v, ?_, ?_⟩
  · simp only [behind, List.length_append, ScalarType.length_encode]
    exact hread
  · rw [hrest]
    exact (List.prefix_append_right_inj _).mpr (List.take_prefix _ _)

/-- At a slot at fault nothing is taken, and the reader stays. -/
theorem read_behind_of_fault {t : ScalarType} {e : WireError}
    (hfault : Slot.fault? data ⟨t, bytes.length⟩ = some e) :
    (behind data bytes).read t = (.error e, behind data bytes) :=
  Slot.read_of_fault hfault

/-- A scalar is refused exactly at a slot at fault, with the fault as the answer. -/
theorem read_behind_eq_error_iff (h : bytes <+: data) {t : ScalarType} {e : WireError} :
    ((behind data bytes).read t).1 = .error e ↔
      Slot.fault? data ⟨t, bytes.length⟩ = some e := by
  cases hfault : Slot.fault? data ⟨t, bytes.length⟩ with
  | some e' =>
    rw [read_behind_of_fault hfault, Except.error.injEq, Option.some.injEq]
  | none =>
    obtain ⟨v, hread, _⟩ := exists_read_behind h hfault
    simp only [hread, reduceCtorEq]

/-! ### Calls -/

/-- Of the values that an array asks for those before the first that is refused are taken: they
stand in the places of old ones, and the reader is behind them. -/
theorem exists_readArray_behind (h : bytes <+: data) (t : ScalarType) (olds : List t.Value) :
    ∃ news front back, olds = front ++ back ∧ news.length = front.length ∧
      (behind data bytes).taken (olds.map fun _ ↦ t) = news.map (Scalar.mk t) ∧
      bytes ++ news.flatMap t.encode <+: data ∧
      ((behind data bytes).readArray t olds).values = news ++ back ∧
      ((behind data bytes).readArray t olds).reader =
        behind data (bytes ++ news.flatMap t.encode) ∧
      ((back = [] ∧ ((behind data bytes).readArray t olds).result = .ok ()) ∨
        ∃ e, back ≠ [] ∧
          Slot.fault? data ⟨t, (bytes ++ news.flatMap t.encode).length⟩ = some e ∧
          ((behind data bytes).readArray t olds).result = .error e) := by
  induction olds generalizing bytes with
  | nil => exact ⟨[], [], [], rfl, rfl, rfl, by simpa using h, rfl, by simp [readArray],
      .inl ⟨rfl, rfl⟩⟩
  | cons old olds ih =>
    cases hfault : Slot.fault? data ⟨t, bytes.length⟩ with
    | some e =>
      have hread := read_behind_of_fault hfault
      refine ⟨[], [], old :: olds, rfl, rfl, ?_, ?_, ?_, ?_, .inr ⟨e, by simp, ?_, ?_⟩⟩
      · simp only [List.map_cons, taken, hread, List.map_nil]
      · simpa using h
      · simp only [readArray, hread, List.nil_append]
      · simp only [readArray, hread, List.flatMap_nil, List.append_nil]
      · rwa [List.flatMap_nil, List.append_nil]
      · simp only [readArray, hread]
    | none =>
      obtain ⟨v, hread, hbehind⟩ := exists_read_behind h hfault
      obtain ⟨news, front, back, rfl, hlength, htaken, hnews, hvalues, hreader, hresult⟩ :=
        ih hbehind
      rw [List.append_assoc] at hnews hreader hresult
      refine ⟨v :: news, old :: front, back, rfl, ?_, ?_, hnews, ?_, ?_, ?_⟩
      · rw [List.length_cons, List.length_cons, hlength]
      · simp only [List.map_cons, taken, hread, htaken]
      · simp only [List.cons_append, readArray, hread, hvalues]
      · simp only [readArray, hread, hreader, List.flatMap_cons]
      · simp only [readArray, hread, List.flatMap_cons]
        exact hresult

/-- A call leaves the reader behind the bytes of the scalars that it takes. -/
theorem call_behind (h : bytes <+: data) (c : Call) :
    bytes ++ ((behind data bytes).taken c.types).flatMap Scalar.bytes <+: data ∧
      (behind data bytes).call c =
        behind data (bytes ++ ((behind data bytes).taken c.types).flatMap Scalar.bytes) := by
  cases c with
  | scalar t =>
    cases hfault : Slot.fault? data ⟨t, bytes.length⟩ with
    | some e =>
      have hread := read_behind_of_fault hfault
      simpa [Call.types, call, taken, hread] using h
    | none =>
      obtain ⟨v, hread, hbehind⟩ := exists_read_behind h hfault
      simpa [Call.types, call, taken, hread, Scalar.bytes] using hbehind
  | array t olds =>
    obtain ⟨news, _, _, _, _, htaken, hnews, _, hreader, _⟩ := exists_readArray_behind h t olds
    have hbytes : (news.map (Scalar.mk t)).flatMap Scalar.bytes = news.flatMap t.encode :=
      List.flatMap_map _ _ _
    simp only [Call.types, call, htaken, hbytes]
    exact ⟨hnews, hreader⟩
  | finish => simpa [Call.types, call, taken] using h

/-- A run leaves the reader behind the bytes of the scalars that are taken in it. -/
theorem run_behind (h : bytes <+: data) (calls : List Call) :
    bytes ++ ((behind data bytes).takenInRun calls).flatMap Scalar.bytes <+: data ∧
      (behind data bytes).run calls =
        behind data (bytes ++ ((behind data bytes).takenInRun calls).flatMap Scalar.bytes) := by
  induction calls generalizing bytes with
  | nil => simpa [takenInRun, run] using h
  | cons c cs ih =>
    obtain ⟨hcall, hreader⟩ := call_behind h c
    obtain ⟨hbehind, hrun⟩ := ih hcall
    simp only [takenInRun, run, hreader, List.flatMap_append]
    rw [← List.append_assoc]
    exact ⟨hbehind, hrun⟩

/-! ### What has been taken -/

/-- The bytes of scalars and of values of one type behind them. -/
private theorem flatMap_bytes_append (xs : List Scalar) (t : ScalarType) (news : List t.Value) :
    (xs ++ news.map (Scalar.mk t)).flatMap Scalar.bytes =
      xs.flatMap Scalar.bytes ++ news.flatMap t.encode := by
  rw [List.flatMap_append, List.flatMap_map]
  rfl

/-- A scalar that is not refused is taken behind the others. -/
theorem hasTaken_read {xs : List Scalar} (h : xs.flatMap Scalar.bytes <+: data) {t : ScalarType}
    {v : t.Value} (hv : ((behind data (xs.flatMap Scalar.bytes)).read t).1 = .ok v) :
    HasTaken data (xs ++ [⟨t, v⟩]) ((behind data (xs.flatMap Scalar.bytes)).read t).2 := by
  cases hfault : Slot.fault? data ⟨t, (xs.flatMap Scalar.bytes).length⟩ with
  | some e =>
    rw [read_behind_of_fault hfault] at hv
    cases hv
  | none =>
    obtain ⟨v', hread, hbehind⟩ := exists_read_behind h hfault
    rw [hread] at hv
    cases hv
    have hone := flatMap_bytes_append xs t [v]
    rw [List.flatMap_singleton] at hone
    rw [← hone] at hread hbehind
    rw [hread]
    exact hasTaken_behind hbehind

/-- So are the values of an array before the first that is refused. That one is refused again if it
is asked for by itself. -/
theorem exists_hasTaken_readArray {xs : List Scalar} (h : xs.flatMap Scalar.bytes <+: data)
    (t : ScalarType) (olds : List t.Value) :
    let r := behind data (xs.flatMap Scalar.bytes)
    ∃ news front back, olds = front ++ back ∧ news.length = front.length ∧
      (r.readArray t olds).values = news ++ back ∧
      r.taken (olds.map fun _ ↦ t) = news.map (Scalar.mk t) ∧
      HasTaken data (xs ++ news.map (Scalar.mk t)) (r.readArray t olds).reader ∧
      ((back = [] ∧ (r.readArray t olds).result = .ok ()) ∨
        ∃ e, back ≠ [] ∧ (r.readArray t olds).result = .error e ∧
          (r.readArray t olds).reader.read t = (.error e, (r.readArray t olds).reader)) := by
  obtain ⟨news, front, back, holds, hlength, htaken, hbehind, hvalues, hreader, hresult⟩ :=
    exists_readArray_behind h t olds
  rw [← flatMap_bytes_append xs t news] at hbehind hreader hresult
  simp only [hvalues, hreader]
  refine ⟨news, front, back, holds, hlength, rfl, htaken, hasTaken_behind hbehind, ?_⟩
  rcases hresult with hall | ⟨e, hback, hfault, herror⟩
  · exact .inl hall
  · exact .inr ⟨e, hback, herror, read_behind_of_fault hfault⟩

/-- After every run the reader is within the byte string, behind the bytes of the scalars taken so
far. The next scalar is refused exactly if fewer bytes are left than it has, or if it is a boolean
and its byte is neither zero nor one; the reader stays then, and otherwise has taken the scalar as
well. Of an array the values before the first that is refused are taken into the places of old ones,
and that one is the answer; the check for bytes that are left changes nothing. -/
theorem run_ofData (data : List UInt8) (calls : List Call) :
    let r := (ofData data).run calls
    let xs := (ofData data).takenInRun calls
    HasTaken data xs r ∧
    (∀ (t : ScalarType) (e : WireError), (r.read t).1 = .error e ↔
      (r.remaining < t.size ∧ e = .underflow t.size r.remaining) ∨
      (t.size ≤ r.remaining ∧ t = .bool ∧
        ∃ byte, data[r.index]? = some byte ∧ byte ≠ 0 ∧ byte ≠ 1 ∧ e = .invalidBool byte)) ∧
    (∀ (t : ScalarType) (e : WireError), (r.read t).1 = .error e → (r.read t).2 = r) ∧
    (∀ (t : ScalarType) (v : t.Value), (r.read t).1 = .ok v →
      HasTaken data (xs ++ [⟨t, v⟩]) (r.read t).2) ∧
    (∀ (t : ScalarType) (olds : List t.Value), ∃ news front back, olds = front ++ back ∧
      news.length = front.length ∧ (r.readArray t olds).values = news ++ back ∧
      r.taken (olds.map fun _ ↦ t) = news.map (Scalar.mk t) ∧
      HasTaken data (xs ++ news.map (Scalar.mk t)) (r.readArray t olds).reader ∧
      ((back = [] ∧ (r.readArray t olds).result = .ok ()) ∨
        ∃ e, back ≠ [] ∧ (r.readArray t olds).result = .error e ∧
          (r.readArray t olds).reader.read t = (.error e, (r.readArray t olds).reader))) ∧
    r.finish = (if r.remaining = 0 then .ok () else .error (.trailingBytes r.remaining)) ∧
    r.call .finish = r := by
  intro r xs
  have hnil : ([] : List UInt8) <+: data := List.nil_prefix
  obtain ⟨hbehind, hrun⟩ : xs.flatMap Scalar.bytes <+: data ∧
      r = behind data (xs.flatMap Scalar.bytes) := run_behind hnil calls
  rw [hrun]
  refine ⟨hasTaken_behind hbehind, fun t e ↦ ?_, fun t e he ↦ ?_, fun t v ↦ hasTaken_read hbehind,
    exists_hasTaken_readArray hbehind, ?_, rfl⟩
  · exact (read_behind_eq_error_iff hbehind).trans Slot.fault?_eq_some_iff
  · rw [read_behind_of_fault ((read_behind_eq_error_iff hbehind).mp he)]
  · have hle := hbehind.length_le
    simp only [finish, isFinished, remaining, behind, beq_iff_eq]
    congr 1
    exact propext (by omega)

/-- Behind a word and a half word a boolean is refused that is neither zero nor one; its byte can
still be read as a number. -/
example :
    (ofData [0, 0, 0, 1, 0, 2, 7]).run [.scalar .uint32,
      .array .uint16 [(5 : UInt16), (6 : UInt16)], .scalar .bool, .finish, .scalar .uint8] =
        ⟨[0, 0, 0, 1, 0, 2, 7], 7⟩ := by rfl

end Reader

end WireSchema
