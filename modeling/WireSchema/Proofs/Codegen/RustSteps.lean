import Mathlib.Data.List.Forall2
import Mathlib.Data.List.Nodup
import WireSchema.Proofs.Wire.Capacity

/-!
# Steps of the generated functions

What the lines of the generated functions `encode` and `decode` do, one step for each line. The
functions are those of a struct that declares members, and they run on a record that holds the
values of these members: a step names a member, and means the first one that is declared by the
name. A step that makes no sense where it stands, as one that names no member, leaves the function
stuck. The main statements say what the steps of a struct with different names come to: those that
write are writing the record, those that read are reading it, and the whole functions are encoding
and decoding it.
-/

namespace WireSchema.RustModule

/-- How a function goes on behind a step. -/
inductive Control
  | runs
  /-- It goes on behind the end of the block. -/
  | skips
  | returns (answer : Except WireError Unit)
  | isStuck

/-- A declared member is of the type of a field, and an array of its length if it is one. -/
def Holds (declared f : Field) : Prop := declared.type = f.type ∧ declared.length = f.length

instance (declared f : Field) : Decidable (Holds declared f) :=
  inferInstanceAs (Decidable (_ ∧ _))

variable {fs : List Field}

/-! ### The steps of encoding -/

/-- A step of the function that encodes. -/
inductive EncodeStep
  /-- The length of the span is its capacity. -/
  | takeCapacity
  /-- A writer starts at the bytes that are shown. -/
  | startWriter
  /-- The writer is handed a member, as a scalar or as an array. An error is returned. -/
  | write (name : String) (isArray : Bool)
  /-- The number of bytes written so far is taken down. -/
  | takeWritten
  /-- A block is entered only if that number is more than the capacity. -/
  | enterIfBeyond
  /-- The two numbers are returned as an overflow. -/
  | returnOverflow
  | leaveBlock
  /-- The length of the span becomes the number of bytes written. -/
  | setLength
  | returnOk
  deriving DecidableEq, Repr

/-- Writes the value that a name means, if it is a scalar or an array as is said. -/
def writeMember? (name : String) (isArray : Bool) (w : Writer) :
    {fs : List Field} → List Field → Record fs → Option (Except WireError Unit × Writer)
  | _, d :: ds, .cons (f := f) v r =>
    if d.name = name then
      if Holds d f ∧ d.length.isSome = isArray then some (f.write w v) else none
    else writeMember? name isArray w ds r
  | _, _, _ => none

/-- What a run of the function has at hand: the span, whose shown bytes the writer has too, and the
variables that are set, the place of the writer among them. -/
structure EncodeState where
  span : Span
  capacity? : Option Nat := none
  index? : Option Nat := none
  written? : Option Nat := none
  control : Control := .runs

namespace EncodeState

/-- The state in which a step makes no sense. -/
def stuck (s : EncodeState) : EncodeState := { s with control := .isStuck }

/-- The state behind what a writer did. -/
def wrote (s : EncodeState) : Except WireError Unit × Writer → EncodeState
  | (.ok (), w) => { s with span := s.span.setBytes w.storage, index? := some w.index }
  | (.error e, w) =>
    { s with
      span := s.span.setBytes w.storage
      index? := some w.index
      control := .returns (.error e) }

/-- The state behind a step that the function comes to. -/
def exec (ds : List Field) (r : Record fs) (s : EncodeState) : EncodeStep → EncodeState
  | .takeCapacity => { s with capacity? := some s.span.length }
  | .startWriter => { s with index? := some 0 }
  | .write name isArray =>
    match s.index?.bind fun index ↦ writeMember? name isArray ⟨s.span.bytes, index⟩ ds r with
    | none => s.stuck
    | some result => s.wrote result
  | .takeWritten => { s with written? := s.index? }
  | .enterIfBeyond =>
    match s.written?, s.capacity? with
    | some written, some capacity =>
      if capacity < written then s else { s with control := .skips }
    | _, _ => s.stuck
  | .returnOverflow =>
    match s.written?, s.capacity? with
    | some written, some capacity =>
      { s with control := .returns (.error (.overflow written capacity)) }
    | _, _ => s.stuck
  | .leaveBlock => s
  | .setLength =>
    match s.written? with
    | none => s.stuck
    | some written => { s with span := s.span.setLength written }
  | .returnOk => { s with control := .returns (.ok ()) }

/-- The state behind the next step. -/
def step (ds : List Field) (r : Record fs) (s : EncodeState) (next : EncodeStep) : EncodeState :=
  match s.control with
  | .runs => s.exec ds r next
  | .skips => if next = .leaveBlock then { s with control := .runs } else s
  | .returns _ => s
  | .isStuck => s

/-- What is returned, and the span that is left. -/
def answer? (s : EncodeState) : Option (Except WireError Unit × Span) :=
  match s.control with
  | .returns answer => some (answer, s.span)
  | _ => none

end EncodeState

/-- What comes of the steps of encoding, run on a record and a span, if they return. -/
def runEncode? (ds : List Field) (steps : List EncodeStep) (r : Record fs) (span : Span) :
    Option (Except WireError Unit × Span) :=
  (steps.foldl (EncodeState.step ds r) { span }).answer?

/-! ### The steps of decoding -/

/-- A step of the function that decodes. -/
inductive DecodeStep
  /-- A reader starts at the bytes. -/
  | startReader
  /-- The reader reads a member, as a scalar or as an array. An error is returned. -/
  | read (name : String) (isArray : Bool)
  /-- What the reader says of the end of the bytes is returned. -/
  | finish
  deriving DecidableEq, Repr

/-- Reads into the value that a name means, if it is a scalar or an array as is said. -/
def readMember? (name : String) (isArray : Bool) (r : Reader) :
    {fs : List Field} → List Field → Record fs → Option (Record.RecordRead fs)
  | _, d :: ds, .cons (f := f) old olds =>
    if d.name = name then
      if Holds d f ∧ d.length.isSome = isArray then
        let a := f.read r old
        some ⟨a.result, .cons a.value olds, a.reader⟩
      else none
    else
      (readMember? name isArray r ds olds).map fun a ↦ ⟨a.result, .cons old a.record, a.reader⟩
  | _, _, _ => none

/-- What a run of the function has at hand: the record, and the reader if there is one. -/
structure DecodeState (fs : List Field) where
  record : Record fs
  reader? : Option Reader := none
  control : Control := .runs

namespace DecodeState

/-- The state in which a step makes no sense. -/
def stuck (s : DecodeState fs) : DecodeState fs := { s with control := .isStuck }

/-- The state behind what a reader did. -/
def ofRead (a : Record.RecordRead fs) : DecodeState fs where
  record := a.record
  reader? := some a.reader
  control :=
    match a.result with
    | .ok () => .runs
    | .error e => .returns (.error e)

/-- The state behind a step that the function comes to. -/
def exec (ds : List Field) (bytes : List UInt8) (s : DecodeState fs) : DecodeStep → DecodeState fs
  | .startReader => { s with reader? := some (Reader.ofData bytes) }
  | .read name isArray =>
    match s.reader?.bind fun reader ↦ readMember? name isArray reader ds s.record with
    | none => s.stuck
    | some a => ofRead a
  | .finish =>
    match s.reader? with
    | none => s.stuck
    | some reader => { s with control := .returns reader.finish }

/-- The state behind the next step. -/
def step (ds : List Field) (bytes : List UInt8) (s : DecodeState fs) (next : DecodeStep) :
    DecodeState fs :=
  match s.control with
  | .runs => s.exec ds bytes next
  | _ => s

/-- What is returned, and the record that is left. -/
def answer? (s : DecodeState fs) : Option (Except WireError Unit × Record fs) :=
  match s.control with
  | .returns answer => some (answer, s.record)
  | _ => none

end DecodeState

/-- What comes of the steps of decoding, run on a record and bytes, if they return. -/
def runDecode? (ds : List Field) (steps : List DecodeStep) (old : Record fs)
    (bytes : List UInt8) : Option (Except WireError Unit × Record fs) :=
  (steps.foldl (DecodeState.step ds bytes) { record := old }).answer?

/-! ### Writing the members -/

/-- The step that writes a member. -/
def writeStep (d : Field) : EncodeStep := .write d.name d.length.isSome

/-- The steps that encode the members of a struct. -/
def encodeSteps (ds : List Field) : List EncodeStep :=
  [.takeCapacity, .startWriter] ++ ds.map writeStep ++
    [.takeWritten, .enterIfBeyond, .returnOverflow, .leaveBlock, .setLength, .returnOk]

/-- The value of the first declared member is the one that its name means. -/
theorem writeMember?_self {d f : Field} (h : Holds d f) (ds : List Field) (v : f.Value)
    (r : Record fs) (w : Writer) :
    writeMember? d.name d.length.isSome w (d :: ds) (.cons v r) = some (f.write w v) := by
  rw [writeMember?, if_pos rfl, if_pos ⟨h, rfl⟩]

namespace EncodeState

/-- A run that has returned does no further step. -/
theorem foldl_step_of_returns {ds : List Field} {r : Record fs} {s : EncodeState}
    {answer : Except WireError Unit} (h : s.control = .returns answer) (steps : List EncodeStep) :
    steps.foldl (step ds r) s = s :=
  List.foldl_fixed' (fun next ↦ by simp only [step, h]) steps

/-- The members of other names are written without the first one. -/
theorem foldl_writeStep_cons {d : Field} {ds : List Field} (h : d.name ∉ ds.map Field.name)
    {f : Field} (v : f.Value) (r : Record fs) (ds' : List Field) (s : EncodeState) :
    (ds.map writeStep).foldl (step (d :: ds') (.cons v r)) s =
      (ds.map writeStep).foldl (step ds' r) s := by
  refine List.foldl_ext _ _ _ fun s next hnext ↦ ?_
  obtain ⟨other, hother, rfl⟩ := List.mem_map.mp hnext
  have hne : d.name ≠ other.name := fun he ↦ h (he ▸ List.mem_map_of_mem hother)
  simp only [step, exec, writeStep, writeMember?, if_neg hne]

/-- What a writer did is lost where one that goes on from there does more. -/
theorem wrote_wrote {s : EncodeState} {w : Writer} (h : w.storage.length = s.span.length)
    (next : Except WireError Unit × Writer) :
    (s.wrote (.ok (), w)).wrote next = s.wrote next := by
  obtain ⟨_ | _, w'⟩ := next <;> simp only [wrote, Span.setBytes_setBytes h]

/-- The steps that write the members of a struct with different names write the record. -/
theorem foldl_writeStep {ds : List Field} (hnodup : (ds.map Field.name).Nodup) (r : Record fs)
    (hholds : List.Forall₂ Holds ds fs) {s : EncodeState} {index : Nat}
    (hcontrol : s.control = .runs) (hindex : s.index? = some index)
    (hs : s.span.length ≤ s.span.storage.length) :
    (ds.map writeStep).foldl (step ds r) s = s.wrote (r.write ⟨s.span.bytes, index⟩) := by
  induction r generalizing ds s index with
  | nil =>
    cases hholds
    have hspan : s.span.setBytes s.span.bytes = s.span := by
      simp only [Span.setBytes, Span.bytes, List.take_append_drop]
    simp only [List.map_nil, List.foldl_nil, Record.write, wrote, hspan, ← hindex]
  | @cons f fs v r ih =>
    obtain ⟨d, ds, hd, hds, rfl⟩ := List.forall₂_cons_right_iff.mp hholds
    obtain ⟨hname, hnodup⟩ := List.nodup_cons.mp hnodup
    have hfirst : s.step (d :: ds) (.cons v r) (writeStep d) =
        s.wrote (f.write ⟨s.span.bytes, index⟩ v) := by
      simp only [step, hcontrol, exec, writeStep, hindex, Option.bind_some, writeMember?_self hd]
    have hsize := Field.capacity_write ⟨s.span.bytes, index⟩ f v
    rw [List.map_cons, List.foldl_cons, hfirst, foldl_writeStep_cons hname, Record.write]
    cases hwrite : f.write ⟨s.span.bytes, index⟩ v with
    | mk answer w =>
      rw [hwrite, Writer.capacity, Writer.capacity, Span.length_bytes hs] at hsize
      cases answer with
      | error e => exact foldl_step_of_returns rfl _
      | ok _ =>
        have hroom : s.span.length ≤ (s.span.setBytes w.storage).storage.length := by
          rw [Span.setBytes, List.length_append, hsize]
          exact Nat.le_add_right _ _
        rw [ih hnodup hds (s := s.wrote (.ok (), w)) hcontrol rfl hroom, wrote_wrote hsize]
        exact congrArg (fun bytes ↦ s.wrote (r.write ⟨bytes, w.index⟩)) (Span.bytes_setBytes hsize)

/-- The steps behind the writes return an overflow if more is written than the capacity, and set the
length otherwise. -/
theorem foldl_encodeEnd (ds : List Field) (r : Record fs) {s : EncodeState}
    {capacity written : Nat} (hcontrol : s.control = .runs)
    (hcapacity : s.capacity? = some capacity) (hindex : s.index? = some written) :
    [EncodeStep.takeWritten, .enterIfBeyond, .returnOverflow, .leaveBlock, .setLength,
        .returnOk].foldl (step ds r) s =
      if capacity < written then
        { s with
          written? := some written
          control := .returns (.error (.overflow written capacity)) }
      else
        { s with
          written? := some written
          span := s.span.setLength written
          control := .returns (.ok ()) } := by
  by_cases hbeyond : capacity < written
  · simp [step, exec, hcontrol, hcapacity, hindex, hbeyond]
  · simp [step, exec, hcontrol, hcapacity, hindex, hbeyond]

end EncodeState

/-- The steps that encode the members of a struct with different names encode the record. -/
theorem runEncode?_encodeSteps {ds : List Field} (hnodup : (ds.map Field.name).Nodup)
    (hholds : List.Forall₂ Holds ds fs) (r : Record fs) {span : Span}
    (hs : span.length ≤ span.storage.length) :
    runEncode? ds (encodeSteps ds) r span = some (r.encode span) := by
  let start : EncodeState := { span, capacity? := some span.length, index? := some 0 }
  have hstart : [EncodeStep.takeCapacity, .startWriter].foldl (EncodeState.step ds r) { span } =
    start := rfl
  have hmembers : (ds.map writeStep).foldl (EncodeState.step ds r) start =
      start.wrote (r.write (Writer.ofStorage span.bytes)) :=
    EncodeState.foldl_writeStep hnodup r hholds rfl rfl hs
  have hsize : (Writer.ofStorage span.bytes).capacity = span.length := Span.length_bytes hs
  rw [runEncode?, encodeSteps, List.foldl_append, List.foldl_append, hstart, hmembers,
    Record.encode, Span.write, Record.writeWithin, hsize]
  obtain ⟨_ | _, w⟩ := r.write (Writer.ofStorage span.bytes)
  · rw [EncodeState.foldl_step_of_returns rfl]
    rfl
  · rw [EncodeState.foldl_encodeEnd ds r (s := start.wrote (.ok (), w)) rfl rfl rfl]
    by_cases hbeyond : span.length < w.index
    · simp only [if_pos hbeyond]
      rfl
    · simp only [if_neg hbeyond]
      rfl

/-! ### Reading the members -/

/-- The step that reads a member. -/
def readStep (d : Field) : DecodeStep := .read d.name d.length.isSome

/-- The steps that decode the members of a struct. -/
def decodeSteps (ds : List Field) : List DecodeStep :=
  [.startReader] ++ ds.map readStep ++ [.finish]

/-- The value of the first declared member is the one that its name means. -/
theorem readMember?_self {d f : Field} (h : Holds d f) (ds : List Field) (old : f.Value)
    (olds : Record fs) (r : Reader) :
    readMember? d.name d.length.isSome r (d :: ds) (.cons old olds) =
      some ⟨(f.read r old).result, .cons (f.read r old).value olds, (f.read r old).reader⟩ := by
  rw [readMember?, if_pos rfl, if_pos ⟨h, rfl⟩]

namespace DecodeState

/-- The state with one more value before those of the record. -/
def cons {f : Field} (v : f.Value) (s : DecodeState fs) : DecodeState (f :: fs) :=
  { record := .cons v s.record, reader? := s.reader?, control := s.control }

/-- A run that has returned does no further step. -/
theorem foldl_step_of_returns {ds : List Field} {bytes : List UInt8} {s : DecodeState fs}
    {answer : Except WireError Unit} (h : s.control = .returns answer) (steps : List DecodeStep) :
    steps.foldl (step ds bytes) s = s :=
  List.foldl_fixed' (fun next ↦ by simp only [step, h]) steps

/-- A member of another name is read without the first one. -/
theorem step_cons {d other : Field} (hne : d.name ≠ other.name) (ds : List Field)
    (bytes : List UInt8) {f : Field} (v : f.Value) (s : DecodeState fs) :
    (s.cons v).step (d :: ds) bytes (readStep other) =
      (s.step ds bytes (readStep other)).cons v := by
  cases hcontrol : s.control with
  | runs =>
    cases hreader : s.reader? with
    | none => simp [step, exec, cons, readStep, hcontrol, hreader, stuck]
    | some reader =>
      cases hread : readMember? other.name other.length.isSome reader ds s.record with
      | none =>
        simp [step, exec, cons, readStep, hcontrol, hreader, stuck, readMember?, hne, hread]
      | some a =>
        simp [step, exec, cons, readStep, hcontrol, hreader, readMember?, hne, hread, ofRead]
  | skips => simp [step, cons, hcontrol]
  | returns answer => simp [step, cons, hcontrol]
  | isStuck => simp [step, cons, hcontrol]

/-- The members of other names are read without the first one. -/
theorem foldl_readStep_cons {d : Field} {ds : List Field} (h : d.name ∉ ds.map Field.name)
    (ds' : List Field) (bytes : List UInt8) {f : Field} (v : f.Value) (s : DecodeState fs) :
    (ds.map readStep).foldl (step (d :: ds') bytes) (s.cons v) =
      ((ds.map readStep).foldl (step ds' bytes) s).cons v := by
  induction ds generalizing s with
  | nil => rfl
  | cons other ds ih =>
    rw [List.map_cons, List.mem_cons, not_or] at h
    simp only [List.map_cons, List.foldl_cons, step_cons h.1, ih h.2]

/-- The steps that read the members of a struct with different names read the record. -/
theorem foldl_readStep {ds : List Field} (hnodup : (ds.map Field.name).Nodup)
    (bytes : List UInt8) (old : Record fs) (hholds : List.Forall₂ Holds ds fs) (reader : Reader) :
    (ds.map readStep).foldl (step ds bytes) { record := old, reader? := some reader } =
      ofRead (old.read reader) := by
  induction old generalizing ds reader with
  | nil =>
    cases hholds
    rfl
  | @cons f fs v olds ih =>
    obtain ⟨d, ds, hd, hds, rfl⟩ := List.forall₂_cons_right_iff.mp hholds
    obtain ⟨hname, hnodup⟩ := List.nodup_cons.mp hnodup
    have hfirst : step (d :: ds) bytes { record := .cons v olds, reader? := some reader }
        (readStep d) = ofRead
          ⟨(f.read reader v).result, .cons (f.read reader v).value olds,
            (f.read reader v).reader⟩ := by
      simp only [step, exec, readStep, Option.bind_some, readMember?_self hd]
    rw [List.map_cons, List.foldl_cons, hfirst, Record.read]
    cases hresult : (f.read reader v).result with
    | error e =>
      exact foldl_step_of_returns rfl _
    | ok _ =>
      have hrest := foldl_readStep_cons hname ds bytes (f.read reader v).value
        { record := olds, reader? := some (f.read reader v).reader }
      rw [ih hnodup hds] at hrest
      exact hrest

end DecodeState

/-- The steps that decode the members of a struct with different names decode into the record. -/
theorem runDecode?_decodeSteps {ds : List Field} (hnodup : (ds.map Field.name).Nodup)
    (hholds : List.Forall₂ Holds ds fs) (old : Record fs) (bytes : List UInt8) :
    runDecode? ds (decodeSteps ds) old bytes = some (old.decode bytes) := by
  have hstart : [DecodeStep.startReader].foldl (DecodeState.step ds bytes) { record := old } =
      { record := old, reader? := some (Reader.ofData bytes) } := rfl
  rw [runDecode?, decodeSteps, List.foldl_append, List.foldl_append, hstart,
    DecodeState.foldl_readStep hnodup bytes old hholds, Record.decode]
  cases hresult : (old.read (Reader.ofData bytes)).result with
  | error e => simp [DecodeState.ofRead, DecodeState.step, DecodeState.answer?, hresult]
  | ok _ =>
    simp [DecodeState.ofRead, DecodeState.step, DecodeState.exec, DecodeState.answer?, hresult]

end WireSchema.RustModule
