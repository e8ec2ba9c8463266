import WireSchema.Proofs.Codegen.Agreement
import WireSchema.Proofs.Codegen.RustSteps

/-!
# The functions of Rust modules

The bodies of `encode` and `decode` in a module, read line by line as steps: a line that hands over
a member is read by its form, and every other line has to be one of a few. The main statement says
that every line of the two bodies in the code of an accepted schema is a step, and that running
these steps on any record of the message is encoding and decoding the record.
-/

namespace WireSchema.RustModule

open Codegen Text

/-! ### Bodies as steps -/

/-- The heading of the function that encodes. -/
def encodeHeading : String :=
  "    pub fn encode(&self, payload: &mut ::umsg_marshal::BufferSpan<'_>) -> " ++
    "::core::result::Result<(), ::umsg_marshal::MarshalError> \x7b"

/-- The heading of the function that decodes. -/
def decodeHeading : String :=
  "    pub fn decode(&mut self, payload: &[u8]) -> " ++
    "::core::result::Result<(), ::umsg_marshal::MarshalError> \x7b"

/-- The line that ends a function. -/
def functionEnd : String := "    \x7d"

/-- The lines between a heading and the next end of a function. -/
def body (heading code : String) : List (List Char) :=
  (((codeLines code).dropWhile (· != heading.toList)).drop 1).takeWhile (· != functionEnd.toList)

/-- A line and its step. The characters of the line come with an equation, so that reading a line
does not decode this one. -/
def known {α : Type} (s : String) {line : List Char} (_ : s = String.ofList line) (step : α) :
    List Char × α :=
  (line, step)

/-- A longer line, with more characters at its start, and its step. -/
def startingWith {α : Type} (s : String) {start : List Char} (_ : s = String.ofList start)
    (rest : List Char × α) : List Char × α :=
  (start ++ rest.1, rest.2)

/-- The lines of encoding that name no member. -/
def encodeLines : List (List Char × EncodeStep) := [
  known "        let capacity = payload.len();" rfl .takeCapacity,
  known "        let mut w = ::umsg_marshal::Writer::new(payload.as_mut_slice());" rfl .startWriter,
  known "        let written = w.bytes_written();" rfl .takeWritten,
  known "        if written > capacity \x7b" rfl .enterIfBeyond,
  startingWith
    "            return ::core::result::Result::Err(::umsg_marshal::MarshalError::Overflow " rfl
    (known "\x7b needed: written, capacity \x7d);" rfl .returnOverflow),
  known "        \x7d" rfl .leaveBlock,
  known "        payload.set_len(written);" rfl .setLength,
  known "        ::core::result::Result::Ok(())" rfl .returnOk]

/-- The lines of decoding that name no member. -/
def decodeLines : List (List Char × DecodeStep) := [
  known "        let mut r = ::umsg_marshal::Reader::new(payload);" rfl .startReader,
  known "        r.finish()" rfl .finish]

/-- The step of encoding that a line is. -/
def encodeStep? (line : List Char) : Option EncodeStep :=
  match statement? forms line with
  | some (.encode name isArray) => some (.write name isArray)
  | some _ => none
  | none => encodeLines.lookup line

/-- The step of decoding that a line is. -/
def decodeStep? (line : List Char) : Option DecodeStep :=
  match statement? forms line with
  | some (.decode name isArray) => some (.read name isArray)
  | some _ => none
  | none => decodeLines.lookup line

/-- The steps of the function that encodes, if every line of its body is one. -/
def encodeFunction? (code : String) : Option (List EncodeStep) :=
  (body encodeHeading code).mapM encodeStep?

/-- The steps of the function that decodes, if every line of its body is one. -/
def decodeFunction? (code : String) : Option (List DecodeStep) :=
  (body decodeHeading code).mapM decodeStep?

/-! ### Lines that are steps -/

/-- The lines are steps, one by one. -/
def AreSteps {α : Type} (step? : List Char → Option α) (lines : List String) (steps : List α) :
    Prop :=
  List.Forall₂ (fun line step ↦ step? line.toList = some step) lines steps

section

variable {α : Type} {step? : List Char → Option α} {lines : List String} {steps : List α}

/-- Lines that are steps are read as these. -/
theorem AreSteps.mapM_eq (h : AreSteps step? lines steps) :
    (lines.map String.toList).mapM step? = some steps := by
  induction h with
  | nil => rfl
  | cons hline _ ih =>
    rw [List.map_cons, List.mapM_cons, hline, ih]
    rfl

/-- A line that is no step is none of them. -/
theorem AreSteps.not_mem (h : AreSteps step? lines steps) {line : String}
    (hline : step? line.toList = none) : line ∉ lines := by
  induction h with
  | nil => exact List.not_mem_nil
  | cons hfirst _ ih =>
    refine List.not_mem_cons_of_ne_of_not_mem ?_ ih
    rintro rfl
    cases hline.symm.trans hfirst

/-- The step of a line that is given by its characters. -/
theorem step?_ofList {line : List Char} {answer : Option α} (h : step? line = answer) :
    step? (String.ofList line).toList = answer := by
  rwa [String.toList_ofList]

/-- The step of a line that is given by the characters of two parts. -/
theorem step?_ofList_append {line line' : List Char} {answer : Option α}
    (h : step? (line ++ line') = answer) :
    step? (String.ofList line ++ String.ofList line').toList = answer := by
  rwa [String.toList_append, String.toList_ofList, String.toList_ofList]

end

/-- The body of the function that encodes. -/
def encodeBody (members : List Member) : List String :=
  ["        let capacity = payload.len();",
    "        let mut w = ::umsg_marshal::Writer::new(payload.as_mut_slice());"] ++
  members.map Member.encoder ++
  ["        let written = w.bytes_written();",
    "        if written > capacity \x7b",
    "            return ::core::result::Result::Err(::umsg_marshal::MarshalError::Overflow " ++
      "\x7b needed: written, capacity \x7d);",
    "        \x7d",
    "        payload.set_len(written);",
    "        ::core::result::Result::Ok(())"]

/-- The body of the function that decodes. -/
def decodeBody (members : List Member) : List String :=
  ["        let mut r = ::umsg_marshal::Reader::new(payload);"] ++ members.map Member.decoder ++
    ["        r.finish()"]

section

variable {members : List Member}
  (hmembers : ∀ x ∈ members, ∀ c ∈ x.name.toList, isNameChar c = true)

include hmembers

/-- The lines of the first body are the steps that encode the declared members. -/
theorem areSteps_encodeBody :
    AreSteps encodeStep? (encodeBody members) (encodeSteps (members.map Member.declared)) := by
  refine List.rel_append (List.rel_append ?start ?writes) ?rest
  case start =>
    iterate 2 refine .cons (step?_ofList rfl) ?_
    exact .nil
  case writes =>
    rw [List.map_map, List.forall₂_map_left_iff, List.forall₂_map_right_iff, List.forall₂_same]
    intro x hx
    rw [encodeStep?, (x.reads_encoder (hmembers x hx)).statement?_eq]
    rfl
  case rest =>
    iterate 2 refine .cons (step?_ofList rfl) ?_
    refine .cons (step?_ofList_append rfl) ?_
    iterate 3 refine .cons (step?_ofList rfl) ?_
    exact .nil

/-- The lines of the second body are the steps that decode the declared members. -/
theorem areSteps_decodeBody :
    AreSteps decodeStep? (decodeBody members) (decodeSteps (members.map Member.declared)) := by
  refine List.rel_append (List.rel_append ?start ?reads) ?rest
  case start => exact .cons (step?_ofList rfl) .nil
  case reads =>
    rw [List.map_map, List.forall₂_map_left_iff, List.forall₂_map_right_iff, List.forall₂_same]
    intro x hx
    rw [decodeStep?, (x.reads_decoder (hmembers x hx)).statement?_eq]
    rfl
  case rest => exact .cons (step?_ofList rfl) .nil

end

/-! ### The bodies of a module -/

/-- What stands between a heading and the end of the function is found again, if neither stands
before. -/
theorem body_eq {heading code : String} {before lines after : List String}
    (hcode : codeLines code =
      (before ++ heading :: (lines ++ functionEnd :: after)).map String.toList)
    (hbefore : heading ∉ before) (hlines : functionEnd ∉ lines) :
    body heading code = lines.map String.toList := by
  have hne {line : String} {s : List String} (h : line ∉ s) :
      ∀ l ∈ s.map String.toList, (l != line.toList) = true := by
    rw [List.forall_mem_map]
    intro l hl
    rw [bne_iff_ne, Ne, String.toList_inj]
    rintro rfl
    exact h hl
  rw [body, hcode, List.map_append, List.map_cons, List.dropWhile_append_of_pos (hne hbefore),
    List.dropWhile_cons_of_neg (by simp), List.drop_one, List.tail_cons, List.map_append,
    List.takeWhile_append_of_pos (hne hlines), List.map_cons,
    List.takeWhile_cons_of_neg (by simp), List.append_nil]

/-- A heading has no statement, and starts like a function that is public. -/
structure IsHeading (heading : String) : Prop where
  silent : Reads forms [heading] []
  start : heading.toList.take 9 = "    pub f".toList

/-- So does the one of the function that encodes. -/
theorem isHeading_encodeHeading : IsHeading encodeHeading := by
  unfold encodeHeading
  exact ⟨reads_opening rfl (not_mem_toList_ofList (by decide)), by simp⟩

/-- So does the one of the function that decodes. -/
theorem isHeading_decodeHeading : IsHeading decodeHeading := by
  unfold decodeHeading
  exact ⟨reads_opening rfl (not_mem_toList_ofList (by decide)), by simp⟩

/-- The headings are different. -/
theorem decodeHeading_ne_encodeHeading : decodeHeading ≠ encodeHeading := by
  unfold decodeHeading encodeHeading
  intro h
  simpa using congrArg (fun s ↦ s.toList.take 12) h

namespace IsHeading

variable {heading line : String} (h : IsHeading heading)

include h

/-- A line that has a statement is no heading. -/
theorem ne_of_reads {s : Statement Bool} (hline : Reads forms [line] [s]) : heading ≠ line := by
  rintro rfl
  cases h.silent.filterMap_eq.symm.trans hline.filterMap_eq

/-- A line that starts otherwise is no heading. -/
theorem ne_append (n : Nat) {opening : String} (hn : n ≤ 9) (hlong : n ≤ opening.toList.length)
    (hstart : "    pub f".toList.take n ≠ opening.toList.take n) (rest : String) :
    heading ≠ opening ++ rest := by
  rintro rfl
  rw [← h.start, List.take_take, Nat.min_eq_left hn, String.toList_append,
    List.take_append_of_le_length hlong] at hstart
  exact hstart rfl

/-- Neither is a fixed line that starts otherwise. -/
theorem ne_fixed (hstart : "    pub f".toList ≠ line.toList.take 9) : heading ≠ line := by
  rintro rfl
  exact hstart h.start.symm

end IsHeading

/-- The lines before the functions. -/
def linesBefore (name : String) (m : Message) (members : List Member) : List String :=
  ["pub struct " ++ name ++ " \x7b"] ++ members.map Member.declaration ++
    ["\x7d", "", "impl " ++ name ++ " \x7b",
      "    pub const MSG_HASH: u32 = 0x" ++ String.ofList (upperHex 8 m.hash.toNat) ++ ";",
      "    pub const PAYLOAD_SIZE: usize = " ++ sizeExpression m.fields ++ ";", ""]

/-- The lines of a module have both functions, one behind the other. -/
theorem itemLines_eq (name : String) (m : Message) (members : List Member) :
    itemLines name m members = linesBefore name m members ++ encodeHeading ::
      (encodeBody members ++ functionEnd :: ("" :: decodeHeading ::
        (decodeBody members ++ functionEnd ::
          (["\x7d", ""] ++ defaultLines name members ++ payloadLines name)))) := by
  simp only [itemLines, implLines, linesBefore, encodeBody, decodeBody, List.append_assoc,
    List.cons_append, List.nil_append]
  unfold encodeHeading functionEnd decodeHeading
  rfl

section

variable {name : String} (hname : IsStructName name) {members : List Member}
  (hmembers : ∀ x ∈ members, ∀ c ∈ x.name.toList, isNameChar c = true) {m : Message}

include hname hmembers

/-- No heading is before the functions. -/
theorem IsHeading.not_mem_linesBefore {heading : String} (h : IsHeading heading) :
    heading ∉ linesBefore name m members := by
  have hdeclaration (x : Member) (hx : x ∈ members) : x.declaration ≠ heading :=
    (h.ne_of_reads (x.reads_declaration (hmembers x hx))).symm
  have himpl : heading ≠ "impl " ++ name ++ " \x7b" := by
    rw [String.append_assoc]
    exact h.ne_append 5 (by decide) (by decide) (by decide) _
  have hsize : heading ≠ "    pub const PAYLOAD_SIZE: usize = " ++ sizeExpression m.fields ++
      ";" := by
    rw [String.append_assoc]
    exact h.ne_append 9 (by decide) (by decide) (by decide) _
  simp only [linesBefore, List.mem_append, List.mem_cons, List.mem_map, List.not_mem_nil, or_false,
    not_or, not_exists, not_and]
  exact ⟨⟨h.ne_of_reads hname.reads_struct, hdeclaration⟩, h.ne_fixed (by decide),
    h.ne_fixed (by decide), himpl, h.ne_of_reads (reads_hash m.hash), hsize,
    h.ne_fixed (by decide)⟩

variable {code : String} (hcode : codeLines code = (itemLines name m members).map String.toList)

include hcode

/-- The steps of the first function are those that encode the declared members. -/
theorem encodeFunction?_eq :
    encodeFunction? code = some (encodeSteps (members.map Member.declared)) := by
  have hsteps := areSteps_encodeBody hmembers
  have hbefore : encodeHeading ∉ linesBefore name m members :=
    isHeading_encodeHeading.not_mem_linesBefore hname hmembers
  rw [itemLines_eq] at hcode
  rw [encodeFunction?, body_eq hcode hbefore (hsteps.not_mem (step?_ofList rfl))]
  exact hsteps.mapM_eq

/-- The steps of the second function are those that decode the declared members. -/
theorem decodeFunction?_eq :
    decodeFunction? code = some (decodeSteps (members.map Member.declared)) := by
  have hsteps := areSteps_decodeBody hmembers
  have hlines : itemLines name m members =
      (linesBefore name m members ++ encodeHeading :: (encodeBody members ++ [functionEnd, ""])) ++
        decodeHeading :: (decodeBody members ++ functionEnd ::
          (["\x7d", ""] ++ defaultLines name members ++ payloadLines name)) := by
    simp only [itemLines_eq, List.append_assoc, List.cons_append, List.nil_append]
  have hbefore : decodeHeading ∉
      linesBefore name m members ++ encodeHeading :: (encodeBody members ++ [functionEnd, ""]) := by
    simp only [List.mem_append, List.mem_cons, List.not_mem_nil, or_false, not_or]
    exact ⟨isHeading_decodeHeading.not_mem_linesBefore hname hmembers,
      decodeHeading_ne_encodeHeading,
      (areSteps_encodeBody hmembers).not_mem (step?_ofList_append rfl),
      isHeading_decodeHeading.ne_fixed (by decide), isHeading_decodeHeading.ne_fixed (by decide)⟩
  rw [decodeFunction?, body_eq (hcode.trans (congrArg _ hlines)) hbefore
    (hsteps.not_mem (step?_ofList rfl))]
  exact hsteps.mapM_eq

end

/-! ### The functions of a module -/

/-- The two functions in the code of an accepted schema are made of steps only, and running these
is encoding and decoding: for every record of the message, every span within its storage and all
bytes they return what `Record.encode` and `Record.decode` answer, and leave the span and the record
that these leave. -/
theorem functions_of_generate {source : String} {m : Message} (h : Message.parse source = .ok m)
    {sourceName : Option String} {code : String}
    (hcode : generate m ⟨.rust, sourceName⟩ = .ok code) :
    ∃ encoding decoding, encodeFunction? code = some encoding ∧
      decodeFunction? code = some decoding ∧
      (∀ (r : Record m.fields) (span : Span), span.length ≤ span.storage.length →
        runEncode? (read code).members encoding r span = some (r.encode span)) ∧
      ∀ (old : Record m.fields) (bytes : List UInt8),
        runDecode? (read code).members decoding old bytes = some (old.decode bytes) := by
  obtain ⟨hstruct, hfields⟩ := (Message.parse_eq_ok_iff.mp h).1.isName_names
  obtain ⟨hne, hnodup, rfl⟩ := render_eq_ok_iff.mp hcode
  have hname := isStructName_structName hstruct hne
  have hmembers : ∀ x ∈ members m, ∀ c ∈ x.name.toList, isNameChar c = true := by
    rw [members, List.forall_mem_map]
    exact fun f hf ↦ isNameChar_of_mem_name (Naming.isIdentifier_fieldName (hfields f hf)).isName
  have hlines := codeLines_module hname hmembers m sourceName
  have hnames : (((members m).map Member.declared).map Field.name).Nodup := by
    rw [List.map_map]
    exact map_name_members m ▸ hnodup
  have hholds : List.Forall₂ Holds ((members m).map Member.declared) m.fields := by
    rw [members, List.map_map, List.forall₂_map_left_iff, List.forall₂_same]
    exact fun f _ ↦ ⟨rfl, rfl⟩
  refine ⟨_, _, encodeFunction?_eq hname hmembers hlines, decodeFunction?_eq hname hmembers hlines,
    fun r span hs ↦ ?_, fun old bytes ↦ ?_⟩
  · rw [read_joinLines hname hmembers]
    exact runEncode?_encodeSteps hnames hholds r hs
  · rw [read_joinLines hname hmembers]
    exact runDecode?_decodeSteps hnames hholds old bytes

end WireSchema.RustModule
