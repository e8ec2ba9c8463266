import WireSchema.Command.Run
import WireSchema.Proofs.Codegen.OutputPaths
import WireSchema.Proofs.Files.Writing

/-!
# Processing one input

An input yields what the bytes of its file do. Where the results are written to files, its code is
written to a place that its package and struct name decide, and messages of different names have
places of which neither is above the other. The main statements say when an input is processed, what
that changes, and that nothing changes where the code is there already.
-/

namespace WireSchema

open Text

/-- What is compiled is parsed. -/
theorem Codegen.parse_of_compile {source code : String} {options : Options} {m : Message}
    (h : compile source options = .ok (m, code)) : Message.parse source = .ok m := by
  obtain ⟨m', hparse, hcode⟩ := bind_eq_ok_iff.mp h
  obtain ⟨code', _, hresult⟩ := bind_eq_ok_iff.mp hcode
  cases hresult
  exact hparse

namespace Invocation

/-- The input compiles to a message and its code. -/
def Yields (inv : Invocation) (t : Tree) (input : String) (m : Message) (code : String) : Prop :=
  Codegen.compileFile t input (inv.options input) = .ok (m, code)

/-- The path that the code of a message is written to. -/
def codePath (inv : Invocation) (m : Message) : String :=
  Codegen.outputPath inv.out m inv.target

/-- Where that path leads to. -/
def codePlace (inv : Invocation) (m : Message) : Location := Path.steps (inv.codePath m)

/-- What the write for an input did, if there was one and it succeeded. -/
def outcome? (inv : Invocation) (s : Session) (input : String) : Option WriteOutcome :=
  match Codegen.compileFile s.tree input (inv.options input) with
  | .error _ => none
  | .ok (m, code) =>
    match inv.delivery m code with
    | .print _ => none
    | .file path text => (s.tree.writeIfChanged path text).1.toOption

/-- The results are written to files, below a directory that is named without `..`. -/
structure WritesFiles (inv : Invocation) : Prop where
  json_eq_false : inv.json = false
  stdout_eq_false : inv.stdout = false
  dots_out : ".." ∉ Path.parts inv.out

variable {inv : Invocation} {devices : Devices} {t t' : Tree} {s s' : Session} {input : String}
  {m m' : Message} {code code' : String}

/-! ### What an input yields -/

/-- An input yields one message and one code. -/
theorem Yields.unique (h : inv.Yields t input m code) (h' : inv.Yields t input m' code') :
    m = m' ∧ code = code' := by
  cases h.symm.trans h'
  exact ⟨rfl, rfl⟩

/-- An input yields what the bytes of its file do. -/
theorem yields_iff (hdots : ".." ∉ Path.parts input) :
    inv.Yields t input m code ↔ Path.NamesFile input ∧ ∃ bytes,
      t.file? (Path.steps input) = some bytes ∧
        Codegen.compileBytes input bytes (inv.options input) = .ok (m, code) := by
  have hread (bytes : List UInt8) : t.read input = .ok bytes ↔ _ := Tree.read_eq_ok_iff hdots
  unfold Yields Codegen.compileFile
  constructor
  · intro h
    split at h
    · cases h
    · next bytes hbytes =>
      obtain ⟨hpath, hfile⟩ := (hread bytes).mp hbytes
      exact ⟨hpath, bytes, hfile, h⟩
  · rintro ⟨hpath, bytes, hfile, hcompile⟩
    rw [(hread bytes).mpr ⟨hpath, hfile⟩]
    exact hcompile

/-- An input yields the same where its file is the same. -/
theorem yields_congr (hdots : ".." ∉ Path.parts input)
    (hsame : t'.file? (Path.steps input) = t.file? (Path.steps input)) :
    inv.Yields t' input m code ↔ inv.Yields t input m code := by
  rw [yields_iff hdots, yields_iff hdots, hsame]

/-- The message that an input yields is that of an accepted schema. -/
theorem Yields.isNamed (h : inv.Yields t input m code) : m.IsNamed := by
  unfold Yields Codegen.compileFile Codegen.compileBytes at h
  split at h
  · cases h
  · split at h
    · cases h
    · split at h
      · cases h
      · next source _ result hcompile =>
        cases h
        exact Message.isNamed_of_parse (Codegen.parse_of_compile hcompile)

/-- Messages of different names have places of which neither is above the other. -/
theorem not_prefix_codePlace (h : m.IsNamed) (h' : m'.IsNamed)
    (hne : (m.package, m.structName) ≠ (m'.package, m'.structName)) :
    ¬inv.codePlace m <+: inv.codePlace m' := by
  unfold codePlace codePath
  rw [Codegen.steps_outputPath h, Codegen.steps_outputPath h', List.prefix_append_right_inj]
  intro hbelow
  obtain ⟨hpackage, hname, _⟩ :=
    (Codegen.outputSteps_inj h h').mp (Codegen.eq_of_prefix_outputSteps h' hbelow)
  exact hne (by rw [hpackage, hname])

/-- So they have different places. -/
theorem codePlace_ne (h : m.IsNamed) (h' : m'.IsNamed)
    (hne : (m.package, m.structName) ≠ (m'.package, m'.structName)) :
    inv.codePlace m ≠ inv.codePlace m' := by
  intro he
  have hempty : inv.codePlace m ++ [] = inv.codePlace m' := by rw [List.append_nil, he]
  exact not_prefix_codePlace h h' hne ⟨[], hempty⟩

/-! ### One input -/

/-- The code of a message can be written in a tree. -/
structure Fits (inv : Invocation) (t : Tree) (m : Message) : Prop where
  namesFile : Path.NamesFile (inv.codePath m)
  admits : t.Admits (inv.codePlace m)

/-- The path of the code leads no place up. -/
theorem WritesFiles.dots_codePath (hfiles : inv.WritesFiles) (h : m.IsNamed) :
    ".." ∉ Path.parts (inv.codePath m) :=
  Codegen.dotDot_not_mem_parts_outputPath h hfiles.dots_out inv.target

/-- The code of an input is written where nothing is printed. -/
theorem process_of_yields (hjson : inv.json = false) (hstdout : inv.stdout = false)
    (hyields : inv.Yields s.tree input m code) :
    inv.process devices s input =
      match devices.disk.writeIfChanged s.tree (inv.codePath m) code with
      | (.error e, t) => (.error (.file e), { s with tree := t })
      | (.ok _, t) => (.ok (), { s with tree := t }) := by
  unfold Yields at hyields
  simp only [process, hyields, delivery, hjson, hstdout, Devices.deliver, Bool.false_eq_true,
    if_false]
  rfl

/-- The code of an input is written. -/
theorem WritesFiles.process_eq (hfiles : inv.WritesFiles)
    (hyields : inv.Yields s.tree input m code) :
    inv.process devices s input =
      match devices.disk.writeIfChanged s.tree (inv.codePath m) code with
      | (.error e, t) => (.error (.file e), { s with tree := t })
      | (.ok _, t) => (.ok (), { s with tree := t }) :=
  process_of_yields hfiles.json_eq_false hfiles.stdout_eq_false hyields

/-- An input that is processed has its code written at its place. -/
theorem WritesFiles.process_eq_ok (hfiles : inv.WritesFiles)
    (h : inv.process devices s input = (.ok (), s')) :
    ∃ m code t', inv.Yields s.tree input m code ∧ inv.Fits s.tree m ∧
      s.tree.Writes (inv.codePlace m) (utf8 code) t' ∧ s' = { s with tree := t' } := by
  cases hcompile : Codegen.compileFile s.tree input (inv.options input) with
  | error e => simp [process, hcompile] at h
  | ok result =>
    obtain ⟨m, code⟩ := result
    have hyields : inv.Yields s.tree input m code := hcompile
    rw [hfiles.process_eq hyields] at h
    split at h
    · cases h
    · next outcome t' hwrite =>
      cases h
      obtain ⟨hpath, hfree, hwritten⟩ :=
        Tree.writeIfChanged_eq_ok (hfiles.dots_codePath hyields.isNamed) hwrite
      exact ⟨m, code, t', hyields, ⟨hpath, hfree⟩, hwritten, rfl⟩

/-- With reliable devices, an input is processed if its code can be written. -/
theorem WritesFiles.exists_process (hfiles : inv.WritesFiles)
    (hyields : inv.Yields s.tree input m code) (hfits : inv.Fits s.tree m) :
    ∃ s', inv.process .reliable s input = (.ok (), s') := by
  obtain ⟨outcome, t', hwrite⟩ := Tree.exists_writeIfChanged
    (hfiles.dots_codePath hyields.isNamed) hfits.namesFile hfits.admits code
  have hdisk : Devices.reliable.disk.writeIfChanged s.tree (inv.codePath m) code =
      (.ok outcome, t') := hwrite
  rw [hfiles.process_eq hyields, hdisk]
  exact ⟨_, rfl⟩

/-- An input whose code is there already changes nothing, and its write says so. -/
theorem WritesFiles.process_of_same (hfiles : inv.WritesFiles)
    (hyields : inv.Yields s.tree input m code) (hpath : Path.NamesFile (inv.codePath m))
    (hfile : s.tree.file? (inv.codePlace m) = some (utf8 code)) :
    inv.process devices s input = (.ok (), s) ∧ inv.outcome? s input = some .unchanged := by
  have hwrite (disk : Disk) :
      disk.writeIfChanged s.tree (inv.codePath m) code = (.ok .unchanged, s.tree) :=
    Tree.writeIfChanged_of_same disk (hfiles.dots_codePath hyields.isNamed) hpath hfile
  constructor
  · rw [hfiles.process_eq hyields, hwrite]
  · unfold Yields at hyields
    unfold codePath at hwrite
    simp only [outcome?, Tree.writeIfChanged, hyields, delivery, hfiles.json_eq_false,
      hfiles.stdout_eq_false, Bool.false_eq_true, if_false, hwrite]
    rfl

end Invocation

end WireSchema
