import WireSchema.Command.Compile
import WireSchema.Proofs.Schema.Declarations

/-!
# Stages of compiling a file

A schema file is read, decoded and parsed, and then code is generated for it. Only the last of these
stages depends on what code is asked for. The main statements say when a file is compiled, and what
an error says about the stage that failed.
-/

namespace WireSchema

open Text

namespace Tree

/-- The file at a path is the given text. -/
def HasText (t : Tree) (path source : String) : Prop :=
  ∃ bytes, t.read path = .ok bytes ∧ ofUtf8? bytes = some source

/-- The file at a path is a schema that is accepted, with the given descriptor. -/
def Describes (t : Tree) (path : String) (m : Message) : Prop :=
  ∃ source, t.HasText path source ∧ Message.parse source = .ok m

variable {t : Tree} {path : String}

/-- A file is one text. -/
theorem HasText.unique {source source' : String} (h : t.HasText path source)
    (h' : t.HasText path source') : source = source' := by
  obtain ⟨bytes, hread, htext⟩ := h
  obtain ⟨bytes', hread', htext'⟩ := h'
  cases hread.symm.trans hread'
  exact Option.some.inj (htext.symm.trans htext')

/-- A file has one descriptor. -/
theorem Describes.unique {m m' : Message} (h : t.Describes path m) (h' : t.Describes path m') :
    m = m' := by
  obtain ⟨source, htext, hparse⟩ := h
  obtain ⟨source', htext', hparse'⟩ := h'
  cases htext.unique htext'
  exact Except.ok.inj (hparse.symm.trans hparse')

end Tree

namespace Codegen

/-- Why a schema file is not compiled, stage by stage. -/
inductive FailsToCompile (t : Tree) (path : String) (options : Options) : CompileError → Prop
  /-- The file cannot be read. -/
  | reading {e : FileError} (h : t.read path = .error e) : FailsToCompile t path options (.file e)
  /-- Its bytes are no text. -/
  | decoding {bytes : List UInt8} (h : t.read path = .ok bytes) (htext : ofUtf8? bytes = none) :
    FailsToCompile t path options (.file .invalidText)
  /-- The text is refused. -/
  | parsing {source : String} {e : SchemaError} (h : t.HasText path source)
    (hparse : Message.parse source = .error e) :
    FailsToCompile t path options (.schema (some path) e)
  /-- There is no code for the message. -/
  | generating {m : Message} {e : SchemaError} (h : t.Describes path m)
    (hcode : generate m options = .error e) : FailsToCompile t path options (.schema (some path) e)

variable {t : Tree} {path source code : String} {options : Options} {m : Message}
  {error : CompileError}

/-- A text is compiled as the schema that it is. -/
private theorem compileFile_of_hasText (h : t.HasText path source) (options : Options) :
    compileFile t path options =
      match compile source options with
      | .error e => .error (.schema (some path) e)
      | .ok result => .ok result := by
  obtain ⟨bytes, hread, htext⟩ := h
  cases hcompile : compile source options <;>
    simp only [compileFile, hread, compileBytes, htext, hcompile]

/-- What is generated for the message of a file is its code. -/
private theorem compileFile_of_describes (h : t.Describes path m) (options : Options) :
    compileFile t path options =
      match generate m options with
      | .error e => .error (.schema (some path) e)
      | .ok code => .ok (m, code) := by
  obtain ⟨source, htext, hparse⟩ := h
  have hcompile : compile source options = (generate m options).map fun code ↦ (m, code) := by
    rw [compile, hparse]
    rfl
  rw [compileFile_of_hasText htext, hcompile]
  cases generate m options <;> rfl

/-- A stage fails, or there is code. -/
private theorem compileFile_cases (t : Tree) (path : String) (options : Options) :
    (∃ e, FailsToCompile t path options e ∧ compileFile t path options = .error e) ∨
      ∃ m code, t.Describes path m ∧ generate m options = .ok code ∧
        compileFile t path options = .ok (m, code) := by
  cases hread : t.read path with
  | error e => exact .inl ⟨_, .reading hread, by rw [compileFile, hread]⟩
  | ok bytes =>
    cases htext : ofUtf8? bytes with
    | none =>
      refine .inl ⟨_, .decoding hread htext, ?_⟩
      simp only [compileFile, hread, compileBytes, htext]
    | some source =>
      have hsource : t.HasText path source := ⟨bytes, hread, htext⟩
      cases hparse : Message.parse source with
      | error e =>
        refine .inl ⟨_, .parsing hsource hparse, ?_⟩
        rw [compileFile_of_hasText hsource, compile, hparse]
        rfl
      | ok m =>
        have hm : t.Describes path m := ⟨source, hsource, hparse⟩
        cases hcode : generate m options with
        | error e =>
          refine .inl ⟨_, .generating hm hcode, ?_⟩
          rw [compileFile_of_describes hm, hcode]
        | ok code =>
          refine .inr ⟨m, code, hm, hcode, ?_⟩
          rw [compileFile_of_describes hm, hcode]

/-- A file is compiled exactly if it has a descriptor, and there is code for that. -/
theorem compileFile_eq_ok_iff :
    compileFile t path options = .ok (m, code) ↔
      t.Describes path m ∧ generate m options = .ok code := by
  constructor
  · intro h
    rcases compileFile_cases t path options with ⟨e, _, he⟩ | ⟨m', code', hm, hcode, hok⟩
    · cases h.symm.trans he
    · cases h.symm.trans hok
      exact ⟨hm, hcode⟩
  · rintro ⟨hm, hcode⟩
    rw [compileFile_of_describes hm, hcode]

/-- The error of a file that is not compiled is that of the stage that fails. -/
theorem compileFile_eq_error_iff :
    compileFile t path options = .error error ↔ FailsToCompile t path options error := by
  constructor
  · intro h
    rcases compileFile_cases t path options with ⟨e, hfails, he⟩ | ⟨m, code, _, _, hok⟩
    · cases h.symm.trans he
      exact hfails
    · cases h.symm.trans hok
  · intro h
    cases h with
    | reading h => rw [compileFile, h]
    | decoding h htext => simp only [compileFile, h, compileBytes, htext]
    | parsing h hparse =>
      rw [compileFile_of_hasText h, compile, hparse]
      rfl
    | generating h hcode => rw [compileFile_of_describes h, hcode]

end Codegen

end WireSchema
