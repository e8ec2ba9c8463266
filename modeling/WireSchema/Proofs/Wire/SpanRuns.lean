import WireSchema.Proofs.Wire.Capacity
import WireSchema.Proofs.Wire.WriterRuns

/-!
# Runs of a span

The length of a span is the room of what is written to it and afterwards the number of bytes that
were written, so it may shrink and grow between the steps of a run. A step works on the bytes that
are shown and cannot touch any other, whether it fails or not. The main statement says this of every
run, and that the length which one encoding leaves is the room of the next.
-/

namespace WireSchema

open Layout

namespace Writer

/-- Makes calls in order up to the first that is refused. -/
def callAll (w : Writer) : List Call → Except WireError Unit × Writer
  | [] => (.ok (), w)
  | c :: cs =>
    match w.call c with
    | (.error e, w') => (.error e, w')
    | (.ok (), w') => w'.callAll cs

/-- Calls in order go through all of their scalars. -/
theorem callAll_eq_writeScalars (w : Writer) (calls : List Call) :
    w.callAll calls = w.writeScalars (calls.flatMap Call.scalars) := by
  induction calls generalizing w with
  | nil => rfl
  | cons c cs ih =>
    rw [callAll, List.flatMap_cons, writeScalars_append, call_eq_writeScalars]
    cases w.writeScalars c.scalars with
    | mk result w' =>
      cases result with
      | error e => rfl
      | ok _ => exact ih w'

/-- A run from the start of a buffer stays within it, and leaves it as large as it was. -/
theorem index_le_capacity_run (storage : List UInt8) (calls : List Call) :
    ((ofStorage storage).run calls).index ≤ storage.length ∧
      ((ofStorage storage).run calls).capacity = storage.length := by
  have hempty : ([] : List UInt8).length ≤ storage.length := Nat.zero_le _
  obtain ⟨hle, hrun⟩ := run_after hempty calls
  rw [after_nil] at hle hrun
  rw [hrun]
  exact ⟨hle, capacity_after hle⟩

end Writer

namespace Span

/-- A step with a span: its length is set, one of its bytes is changed, a writer on its bytes is
called up to the first call that is refused or whatever the calls answer, or a record is encoded
into it. -/
inductive Step
  | setLength (length : Nat)
  | set (i : Nat) (byte : UInt8)
  | write (calls : List Writer.Call)
  | writeAny (calls : List Writer.Call)
  | encode {fs : List Field} (r : Record fs)

/-- Why a step fails. -/
inductive StepError
  /-- The byte to change is not shown. -/
  | notShown (i : Nat)
  /-- Something does not fit. -/
  | wire (error : WireError)
  deriving DecidableEq, Repr

/-- What a step answers, and the span after it. -/
def step (s : Span) : Step → Except StepError Unit × Span
  | .setLength length => (.ok (), s.setLength length)
  | .set i byte =>
    match s.set? i byte with
    | none => (.error (.notShown i), s)
    | some s' => (.ok (), s')
  | .write calls => ((s.write fun w ↦ w.callAll calls).1.mapError .wire,
      (s.write fun w ↦ w.callAll calls).2)
  | .writeAny calls => ((s.write fun w ↦ (.ok (), w.run calls)).1.mapError .wire,
      (s.write fun w ↦ (.ok (), w.run calls)).2)
  | .encode r => ((r.encode s).1.mapError .wire, (r.encode s).2)

/-- The span after some steps, whatever they answer. -/
def run (s : Span) : List Step → Span
  | [] => s
  | c :: cs => (s.step c).2.run cs

/-- What a step leaves as it is: the size of the storage and every byte that is not shown. The
length stays within the storage. -/
structure Keeps (s s' : Span) : Prop where
  length_storage : s'.storage.length = s.storage.length
  length_le : s'.length ≤ s'.storage.length
  drop_storage : s'.storage.drop s.length = s.storage.drop s.length

variable {s : Span}

/-! ### One step -/

/-- Other bytes of the same number change nothing else. -/
theorem keeps_setBytes (hs : s.length ≤ s.storage.length) {bytes : List UInt8}
    (h : bytes.length = s.length) : Keeps s (s.setBytes bytes) := by
  have hsize : (bytes ++ s.storage.drop s.length).length = s.storage.length := by
    rw [List.length_append, List.length_drop, h]
    omega
  exact ⟨hsize, hs.trans_eq hsize.symm, List.drop_left' h⟩

/-- Another length changes no byte. -/
theorem Keeps.setLength {s' : Span} (h : Keeps s s') (length : Nat) :
    Keeps s (s'.setLength length) :=
  ⟨h.length_storage, Nat.min_le_right _ _, h.drop_storage⟩

/-- What a writer does that leaves the buffer as large as it was changes nothing but the shown
bytes. -/
theorem keeps_write (hs : s.length ≤ s.storage.length)
    {action : Writer → Except WireError Unit × Writer}
    (h : (action (Writer.ofStorage s.bytes)).2.capacity = s.length) :
    Keeps s (s.write action).2 := by
  unfold write
  split
  next e w hw =>
    rw [hw] at h
    exact keeps_setBytes hs h
  next w hw =>
    rw [hw] at h
    exact (keeps_setBytes hs h).setLength w.index

/-- What a writer fails at leaves the length as it was. -/
theorem length_write_of_error {action : Writer → Except WireError Unit × Writer} {e : WireError}
    (h : (s.write action).1 = .error e) : (s.write action).2.length = s.length := by
  unfold write at h ⊢
  split at h
  next e' w hw => rfl
  next w hw => cases h

/-- Scalars in a row leave the bytes of a span as many as they were. -/
theorem capacity_writeScalars_bytes (hs : s.length ≤ s.storage.length) (xs : List Scalar) :
    ((Writer.ofStorage s.bytes).writeScalars xs).2.index ≤ s.length ∧
      ((Writer.ofStorage s.bytes).writeScalars xs).2.capacity = s.length := by
  have hcapacity : (Writer.ofStorage s.bytes).capacity = s.length := length_bytes hs
  rw [← hcapacity]
  exact Writer.index_le_capacity_writeScalars (Nat.zero_le _) xs

/-- A step changes no byte that is not shown. -/
theorem keeps_step (hs : s.length ≤ s.storage.length) (c : Step) : Keeps s (s.step c).2 := by
  have hself : Keeps s s := ⟨rfl, hs, rfl⟩
  cases c with
  | setLength length => exact hself.setLength length
  | set i byte =>
    simp only [step, set?]
    split
    next hnone => exact hself
    next s' hsome =>
      obtain ⟨_, hset⟩ := Option.ite_none_right_eq_some.mp hsome
      rw [← Option.some.inj hset]
      exact keeps_setBytes hs (by rw [List.length_set, length_bytes hs])
  | write calls =>
    apply keeps_write hs
    rw [Writer.callAll_eq_writeScalars]
    exact (capacity_writeScalars_bytes hs _).2
  | writeAny calls =>
    apply keeps_write hs
    rw [(Writer.index_le_capacity_run s.bytes calls).2, length_bytes hs]
  | encode r =>
    apply keeps_write hs
    rw [r.writeWithin_eq_write (Nat.zero_le _), ← Writer.writeScalars_record]
    exact (capacity_writeScalars_bytes hs _).2

/-- A step that fails leaves the length as it was. -/
theorem length_step_of_error {c : Step} {e : StepError} (h : (s.step c).1 = .error e) :
    (s.step c).2.length = s.length := by
  have hwrite (action : Writer → Except WireError Unit × Writer)
      (hmap : (s.write action).1.mapError .wire = .error e) :
      (s.write action).2.length = s.length := by
    cases hresult : (s.write action).1 with
    | error e' => exact length_write_of_error hresult
    | ok _ =>
      rw [hresult] at hmap
      cases hmap
  cases c with
  | setLength length => cases h
  | set i byte =>
    simp only [step] at h ⊢
    split at h
    next hnone => rfl
    next s' hsome => cases h
  | write calls => exact hwrite _ h
  | writeAny calls => exact hwrite _ h
  | encode r => exact hwrite r.writeWithin h

/-! ### Encodings -/

/-- A record is encoded exactly if it takes no more than the span shows. -/
theorem step_encode_eq_ok_iff (hs : s.length ≤ s.storage.length) {fs : List Field}
    (r : Record fs) : (s.step (.encode r)).1 = .ok () ↔ totalSize fs ≤ s.length := by
  by_cases hfits : totalSize fs ≤ s.length
  · refine iff_of_true ?_ hfits
    rw [step, r.encode_of_fits hs hfits]
    rfl
  · refine iff_of_false ?_ hfits
    have hwidth : s.length < width (r.scalars.map Scalar.type) := by
      rw [map_type_scalars, width_types]
      exact Nat.not_le.mp hfits
    obtain ⟨front, x, back, hr, hfront, hx⟩ := exists_first_exceeding hwidth
    rw [step, r.encode_of_exceeds hs hr hfront hx]
    exact nofun

/-- Then the length becomes the number of its bytes. -/
theorem length_step_encode (hs : s.length ≤ s.storage.length) {fs : List Field} (r : Record fs) :
    (s.step (.encode r)).2.length =
      if totalSize fs ≤ s.length then totalSize fs else s.length := by
  split
  next hfits => rw [step, r.encode_of_fits hs hfits]
  next hexceeds =>
    cases hresult : (s.step (.encode r)).1 with
    | error e => exact length_step_of_error hresult
    | ok _ => exact absurd ((step_encode_eq_ok_iff hs r).mp hresult) hexceeds

/-! ### Runs -/

/-- A run leaves the storage as large as it was, and the length within it. -/
theorem length_run (hs : s.length ≤ s.storage.length) (steps : List Step) :
    (s.run steps).storage.length = s.storage.length ∧
      (s.run steps).length ≤ (s.run steps).storage.length := by
  induction steps generalizing s with
  | nil => exact ⟨rfl, hs⟩
  | cons c cs ih =>
    have hstep := keeps_step hs c
    obtain ⟨hsize, hle⟩ := ih hstep.length_le
    exact ⟨hsize.trans hstep.length_storage, hle⟩

/-- After every run the storage is as large as at the start and the span shows as many of its first
bytes as its length says, so that no index is out of bounds, neither of the span nor of a writer on
its bytes. The next step changes shown bytes only, and none of the length if it fails. A record is
encoded exactly if it takes no more than the length that the step before left, whether that was an
encoding or not. -/
theorem run_ofLength (storage : List UInt8) (length : Nat) (steps : List Step) :
    let s := (ofLength storage length).run steps
    s.storage.length = storage.length ∧ s.length ≤ storage.length ∧
    s.bytes <+: s.storage ∧ s.bytes.length = s.length ∧
    (∀ c : Step, (s.step c).2.storage.length = storage.length ∧
      (s.step c).2.storage.drop s.length = s.storage.drop s.length ∧
      ((s.step c).1 ≠ .ok () → (s.step c).2.length = s.length)) ∧
    (∀ calls, ((Writer.ofStorage s.bytes).run calls).index ≤ s.length ∧
      ((Writer.ofStorage s.bytes).run calls).capacity = s.length) ∧
    (∀ xs, ((Writer.ofStorage s.bytes).writeScalars xs).2.index ≤ s.length ∧
      ((Writer.ofStorage s.bytes).writeScalars xs).2.capacity = s.length) ∧
    ∀ {fs : List Field} (r : Record fs),
      ((s.step (.encode r)).1 = .ok () ↔ totalSize fs ≤ s.length) ∧
      (s.step (.encode r)).2.length = (if totalSize fs ≤ s.length then totalSize fs else s.length) ∧
      ∀ {fs' : List Field} (r' : Record fs'),
        ((s.step (.encode r)).2.step (.encode r')).1 = .ok () ↔
          totalSize fs' ≤ (s.step (.encode r)).2.length := by
  intro s
  obtain ⟨hsize, hs⟩ : s.storage.length = storage.length ∧ s.length ≤ s.storage.length :=
    length_run (length_ofLength_le storage length) steps
  refine ⟨hsize, hsize ▸ hs, List.take_prefix _ _, length_bytes hs, fun c ↦ ?_, fun calls ↦ ?_,
    capacity_writeScalars_bytes hs, fun r ↦ ?_⟩
  · have hkeeps := keeps_step hs c
    refine ⟨hkeeps.length_storage.trans hsize, hkeeps.drop_storage, fun hfails ↦ ?_⟩
    cases hresult : (s.step c).1 with
    | error e => exact length_step_of_error hresult
    | ok _ => exact absurd hresult hfails
  · rw [← length_bytes hs]
    exact Writer.index_le_capacity_run s.bytes calls
  · exact ⟨step_encode_eq_ok_iff hs r, length_step_encode hs r, fun r' ↦
      step_encode_eq_ok_iff (keeps_step hs (.encode r)).length_le r'⟩

/-- What is written of a row that does not fit stays, with the length; a shorter row leaves less
room, and a greater length shows the bytes behind it again. -/
example :
    (ofLength [9, 9, 9, 9, 9] 3).run [.write [.array .uint16 [(1 : UInt16), (2 : UInt16)]],
      .write [.scalar ⟨.uint8, (7 : UInt8)⟩], .write [.scalar ⟨.uint16, (5 : UInt16)⟩],
      .setLength 9] = ⟨[7, 1, 9, 9, 9], 5⟩ := by rfl

end Span

end WireSchema
