import WireSchema.Proofs.Wire.Encoding

/-!
# Runs of a writer

A writer may be called again after a call that failed, so a run is any list of calls, of which some
fail. What it leaves in the buffer depends on the accepted scalars only: their bytes stand at the
start, one after the other, and the old bytes behind them. The main statement says this of every
run, and which scalars are accepted.
-/

namespace WireSchema

open Layout

namespace Writer

/-- A call of a writer, with one scalar or with those of an array. -/
inductive Call
  | scalar (x : Scalar)
  | array (t : ScalarType) (values : List t.Value)

/-- The scalars that a call offers. -/
def Call.scalars : Call → List Scalar
  | scalar x => [x]
  | array t values => values.map (Scalar.mk t)

/-- What a call answers, and the writer after it. -/
def call (w : Writer) : Call → Except WireError Unit × Writer
  | .scalar x => w.write x.type x.value
  | .array t values => w.writeArray t values

/-- The writer after some calls, whatever they answer. -/
def run (w : Writer) : List Call → Writer
  | [] => w
  | c :: cs => (w.call c).2.run cs

/-- The scalars of a call that are accepted: those before the first that is refused. -/
def accepted (w : Writer) : List Scalar → List Scalar
  | [] => []
  | x :: xs =>
    match w.write x.type x.value with
    | (.error _, _) => []
    | (.ok (), w') => x :: w'.accepted xs

/-- The scalars that are accepted in a run. -/
def acceptedInRun (w : Writer) : List Call → List Scalar
  | [] => []
  | c :: cs => w.accepted c.scalars ++ (w.call c).2.acceptedInRun cs

/-- The writer that has written some bytes to the start of a buffer. -/
def after (storage bytes : List UInt8) : Writer :=
  ⟨bytes ++ storage.drop bytes.length, bytes.length⟩

/-! ### One scalar -/

variable {storage bytes : List UInt8}

/-- Before the first call nothing is written. -/
theorem after_nil (storage : List UInt8) : after storage [] = ofStorage storage := rfl

/-- Bytes that fit leave the buffer as large as it was. -/
theorem capacity_after (h : bytes.length ≤ storage.length) :
    (after storage bytes).capacity = storage.length := by
  rw [after, capacity, List.length_append, List.length_drop]
  omega

/-- A scalar that fits is accepted, and its bytes come behind the others. -/
theorem write_after_of_fits {x : Scalar} (h : bytes.length + x.type.size ≤ storage.length) :
    (after storage bytes).write x.type x.value = (.ok (), after storage (bytes ++ x.bytes)) := by
  have hcapacity : (after storage bytes).capacity = storage.length := capacity_after (by omega)
  have hput : (after storage bytes).put x.bytes = after storage (bytes ++ x.bytes) := by
    simp only [put, after, List.take_left, ← List.drop_drop, List.drop_left, List.length_append,
      List.append_assoc]
  rw [← hput]
  exact if_pos (by rwa [hcapacity])

/-- Any other scalar is refused, and the writer stays as it is. -/
theorem write_after_of_exceeds (hbytes : bytes.length ≤ storage.length) {x : Scalar}
    (h : storage.length < bytes.length + x.type.size) :
    (after storage bytes).write x.type x.value =
      (.error (.overflow (bytes.length + x.type.size) storage.length), after storage bytes) := by
  have hcapacity := capacity_after hbytes
  rw [write, hcapacity]
  exact if_neg (Nat.not_le.mpr h)

/-! ### Calls -/

/-- A call goes through its scalars. -/
theorem call_eq_writeScalars (w : Writer) (c : Call) : w.call c = w.writeScalars c.scalars := by
  cases c with
  | scalar x =>
    simp only [call, Call.scalars, writeScalars]
    cases hw : w.write x.type x.value with
    | mk result w' => cases result <;> rfl
  | array t values => exact (writeScalars_map_mk w t values).symm

/-- What a row of scalars answers whose last ones are left over: the first of them is refused. -/
def answer (storage bytes : List UInt8) : List Scalar → Except WireError Unit
  | [] => .ok ()
  | x :: _ => .error (.overflow (bytes.length + x.type.size) storage.length)

/-- Of a row of scalars those before the first that does not fit are accepted, and that one is the
answer. -/
theorem exists_writeScalars_after (hbytes : bytes.length ≤ storage.length) (xs : List Scalar) :
    ∃ front back, xs = front ++ back ∧ (after storage bytes).accepted xs = front ∧
      (bytes ++ front.flatMap Scalar.bytes).length ≤ storage.length ∧
      (∀ x ∈ back.head?, storage.length <
        (bytes ++ front.flatMap Scalar.bytes).length + x.type.size) ∧
      (after storage bytes).writeScalars xs =
        (answer storage (bytes ++ front.flatMap Scalar.bytes) back,
          after storage (bytes ++ front.flatMap Scalar.bytes)) := by
  induction xs generalizing bytes with
  | nil =>
    refine ⟨[], [], rfl, rfl, ?_, nofun, ?_⟩
    · simpa using hbytes
    · simp [writeScalars, answer]
  | cons x xs ih =>
    by_cases hfits : bytes.length + x.type.size ≤ storage.length
    · have hlength : (bytes ++ x.bytes).length ≤ storage.length := by
        rwa [List.length_append, length_bytes]
      have hwrite := write_after_of_fits hfits
      obtain ⟨front, back, rfl, haccepted, hroom, hback, hrest⟩ := ih hlength
      rw [List.append_assoc] at hroom hback hrest
      refine ⟨x :: front, back, rfl, ?_, hroom, hback, ?_⟩
      · simp only [accepted, hwrite, haccepted]
      · simp only [writeScalars, hwrite, hrest]
        rfl
    · have hexceeds : storage.length < bytes.length + x.type.size := Nat.not_le.mp hfits
      have hwrite := write_after_of_exceeds hbytes hexceeds
      refine ⟨[], x :: xs, rfl, ?_, ?_, ?_, ?_⟩
      · simp only [accepted, hwrite]
      · simpa using hbytes
      · intro y hy
        cases hy
        simpa using hexceeds
      · simp [writeScalars, hwrite, answer]

/-- Of an array the values before the first that does not fit are accepted. -/
theorem exists_writeArray_after (hbytes : bytes.length ≤ storage.length) (t : ScalarType)
    (values : List t.Value) :
    ∃ front back, values = front ++ back ∧
      (after storage bytes).accepted (values.map (Scalar.mk t)) = front.map (Scalar.mk t) ∧
      (bytes ++ front.flatMap t.encode).length ≤ storage.length ∧
      (back = [] ∨ storage.length < (bytes ++ front.flatMap t.encode).length + t.size) ∧
      (after storage bytes).writeArray t values =
        (answer storage (bytes ++ front.flatMap t.encode) (back.map (Scalar.mk t)),
          after storage (bytes ++ front.flatMap t.encode)) := by
  obtain ⟨front, back, hvalues, haccepted, hroom, hback, hwrite⟩ :=
    exists_writeScalars_after hbytes (values.map (Scalar.mk t))
  obtain ⟨front, back, rfl, rfl, rfl⟩ := List.map_eq_append_iff.mp hvalues
  have hfront : (front.map (Scalar.mk t)).flatMap Scalar.bytes = front.flatMap t.encode :=
    List.flatMap_map _ _ _
  rw [hfront] at hroom hback hwrite
  refine ⟨front, back, rfl, haccepted, hroom, ?_, ?_⟩
  · cases back with
    | nil => exact .inl rfl
    | cons v rest => exact .inr (hback ⟨t, v⟩ rfl)
  · rw [← writeScalars_map_mk, hwrite]

/-- A run leaves the bytes of the accepted scalars behind those that were there. -/
theorem run_after (hbytes : bytes.length ≤ storage.length) (calls : List Call) :
    (bytes ++ ((after storage bytes).acceptedInRun calls).flatMap Scalar.bytes).length ≤
        storage.length ∧
      (after storage bytes).run calls =
        after storage
          (bytes ++ ((after storage bytes).acceptedInRun calls).flatMap Scalar.bytes) := by
  induction calls generalizing bytes with
  | nil => simpa [acceptedInRun, run] using hbytes
  | cons c cs ih =>
    obtain ⟨front, back, _, haccepted, hroom, _, hwrite⟩ :=
      exists_writeScalars_after hbytes c.scalars
    obtain ⟨hlength, hrun⟩ := ih hroom
    have hcall : ((after storage bytes).call c).2 =
        after storage (bytes ++ front.flatMap Scalar.bytes) := by
      rw [call_eq_writeScalars, hwrite]
    simp only [acceptedInRun, run, haccepted, hcall, List.flatMap_append]
    rw [← List.append_assoc]
    exact ⟨hlength, hrun⟩

/-- After every run the writer has written the bytes of the accepted scalars, one after the other
from the start of the buffer, and the buffer behind them is as it was. The next scalar is accepted
exactly if it fits behind them, whatever was refused before; otherwise the answer says where it
would end, and nothing changes. Of an array the values before the first that does not fit are
accepted, and that one is the answer. -/
theorem run_ofStorage (storage : List UInt8) (calls : List Call) :
    let w := (ofStorage storage).run calls
    let bytes := ((ofStorage storage).acceptedInRun calls).flatMap Scalar.bytes
    w.index = bytes.length ∧ bytes.length ≤ w.capacity ∧ w.capacity = storage.length ∧
    w.storage = bytes ++ storage.drop bytes.length ∧
    (∀ (t : ScalarType) (v : t.Value), w.write t v =
      if bytes.length + t.size ≤ w.capacity then (.ok (), after storage (bytes ++ t.encode v))
      else (.error (.overflow (bytes.length + t.size) w.capacity), w)) ∧
    ∀ (t : ScalarType) (values : List t.Value), ∃ front back, values = front ++ back ∧
      w.accepted (values.map (Scalar.mk t)) = front.map (Scalar.mk t) ∧
      (bytes ++ front.flatMap t.encode).length ≤ w.capacity ∧
      (back = [] ∨ w.capacity < (bytes ++ front.flatMap t.encode).length + t.size) ∧
      w.writeArray t values =
        (answer storage (bytes ++ front.flatMap t.encode) (back.map (Scalar.mk t)),
          after storage (bytes ++ front.flatMap t.encode)) := by
  intro w bytes
  have hafter : bytes.length ≤ storage.length ∧ w = after storage bytes := by
    have h := @run_after storage [] (Nat.zero_le _) calls
    rw [after_nil, List.nil_append] at h
    exact h
  obtain ⟨hlength, hrun⟩ := hafter
  have hcapacity : w.capacity = storage.length := by rw [hrun, capacity_after hlength]
  rw [hcapacity]
  refine ⟨by rw [hrun]; rfl, hlength, rfl, by rw [hrun]; rfl, fun t v ↦ ?_, fun t values ↦ ?_⟩
  · rw [hrun]
    split
    · next hfits => exact write_after_of_fits (x := ⟨t, v⟩) hfits
    · next hexceeds => exact write_after_of_exceeds (x := ⟨t, v⟩) hlength (Nat.not_le.mp hexceeds)
  · rw [hrun]
    exact exists_writeArray_after hlength t values

/-- A word is accepted, a half word behind it does not fit, and a byte does. -/
example :
    (ofStorage [9, 9, 9, 9, 9]).run [.scalar ⟨.uint32, (1 : UInt32)⟩,
      .array .uint16 [(2 : UInt16), (3 : UInt16)], .scalar ⟨.uint8, (4 : UInt8)⟩] =
        ⟨[0, 0, 0, 1, 4], 5⟩ := by rfl

end Writer

end WireSchema
