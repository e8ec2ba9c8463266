import WireSchema.Proofs.Codegen.Outcome
import WireSchema.Proofs.Command.Failures

/-!
# Runs that print descriptors

A run that prints descriptors generates code all the same, and only then leaves it unused. So a
schema without names in Rust has its descriptor printed for C++ only. The main statement says which
runs succeed and what they print, that the runs for the two languages are the same exactly if no
input that is reached lacks names in Rust, and how the run for Rust ends at the first that does.
-/

namespace WireSchema

/-- There are names for a message in a language. For Rust this takes that something is left of the
name of its struct, and that its fields get different names. -/
def Target.CanName : Target → Message → Prop
  | .cpp, _ => True
  | .rust, m =>
    Naming.structName m.structName ≠ "" ∧ (m.fields.map RustModule.fieldName).Nodup

instance : (target : Target) → (m : Message) → Decidable (target.CanName m)
  | .cpp, _ => inferInstanceAs (Decidable True)
  | .rust, _ => inferInstanceAs (Decidable (_ ∧ _))

namespace Codegen

variable {target : Target} {m : Message} {sourceName : Option String}

/-- There is code in a language exactly for a message with names in it. -/
theorem exists_code_iff :
    (∃ code, generate m ⟨target, sourceName⟩ = .ok code) ↔ target.CanName m := by
  cases target with
  | cpp => exact iff_of_true ⟨_, rfl⟩ trivial
  | rust =>
    have hgenerate : generate m ⟨.rust, sourceName⟩ = RustModule.render m sourceName := rfl
    simp [hgenerate, RustModule.render_eq_ok_iff, Target.CanName]

variable {t : Tree} {path : String} {error : CompileError}

/-- A file that is not compiled to C++ is not compiled to any language. -/
theorem FailsToCompile.of_cpp (h : FailsToCompile t path ⟨.cpp, sourceName⟩ error)
    (options : Options) : FailsToCompile t path options error := by
  cases h with
  | reading h => exact .reading h
  | decoding h htext => exact .decoding h htext
  | parsing h hparse => exact .parsing h hparse
  | generating h hcode => cases hcode

end Codegen

namespace Invocation

open Text

/-- The invocation for another language. -/
def withTarget (inv : Invocation) (target : Target) : Invocation := { inv with target := target }

/-- Up to the first input that is no schema, every input has names in Rust. -/
def ReachesNames (t : Tree) (inputs : List String) : Prop :=
  ∀ before input after m, inputs = before ++ input :: after →
    (∀ earlier ∈ before, ∃ m', t.Describes earlier m') → t.Describes input m →
      Target.CanName .rust m

variable {inv : Invocation} {t : Tree} {s : Session} {target : Target} {input text : String}
  {inputs : List String} {m : Message} {e : CompileError}

/-! ### Which names are reached -/

/-- Behind an input that is no schema nothing is reached. -/
theorem reachesNames_cons_of_not (h : ¬∃ m, t.Describes input m) (inputs : List String) :
    ReachesNames t (input :: inputs) := by
  intro before next after m happend hbefore hm
  cases before with
  | nil =>
    obtain ⟨rfl, _⟩ := List.cons_eq_cons.mp happend
    exact absurd ⟨m, hm⟩ h
  | cons first before =>
    obtain ⟨rfl, _⟩ := List.cons_eq_cons.mp happend
    exact absurd (hbefore _ List.mem_cons_self) h

/-- Behind a schema the next input is reached. -/
theorem reachesNames_cons_iff (h : t.Describes input m) :
    ReachesNames t (input :: inputs) ↔ Target.CanName .rust m ∧ ReachesNames t inputs := by
  constructor
  · intro hall
    refine ⟨hall [] input inputs m rfl (by simp) h, fun before next after m' happend hbefore ↦ ?_⟩
    refine hall (input :: before) next after m' (by rw [happend, List.cons_append]) ?_
    exact List.forall_mem_cons.mpr ⟨⟨m, h⟩, hbefore⟩
  · rintro ⟨hname, hall⟩ before next after m' happend hbefore hm'
    cases before with
    | nil =>
      obtain ⟨rfl, _⟩ := List.cons_eq_cons.mp happend
      rwa [hm'.unique h]
    | cons first before =>
      obtain ⟨_, hrest⟩ := List.cons_eq_cons.mp happend
      exact hall before next after m' hrest (List.forall_mem_cons.mp hbefore).2 hm'

/-! ### One input -/

/-- What is not printed for C++ is not printed for any language, for the same reason. -/
theorem textOf_of_cpp_eq_error (h : (inv.withTarget .cpp).textOf t input = .error e)
    (target : Target) : (inv.withTarget target).textOf t input = .error e := by
  rw [textOf] at h ⊢
  cases hcompile : Codegen.compileFile t input ((inv.withTarget .cpp).options input) with
  | ok result => simp [hcompile, Except.map] at h
  | error e' =>
    rw [hcompile] at h
    cases h
    have hfails := Codegen.compileFile_eq_error_iff.mp hcompile
    rw [Codegen.compileFile_eq_error_iff.mpr (hfails.of_cpp _)]
    rfl

/-- Where there is no code for a schema, its error takes the place of its text. -/
theorem textOf_of_describes (hm : t.Describes input m) {e : SchemaError}
    (hcode : Codegen.generate m ⟨target, Path.fileName? input⟩ = .error e) :
    (inv.withTarget target).textOf t input = .error (.schema (some input) e) := by
  have hfails : Codegen.FailsToCompile t input ⟨target, Path.fileName? input⟩
    (.schema (some input) e) := .generating hm hcode
  have hoptions : (inv.withTarget target).options input = ⟨target, Path.fileName? input⟩ := rfl
  rw [textOf, hoptions, Codegen.compileFile_eq_error_iff.mpr hfails]
  rfl

/-- Something is printed of every descriptor. -/
theorem utf8_dump_ne_nil (m : Message) : utf8 (m.dump ++ "\n") ≠ [] := by
  have hempty : utf8 "" = [] := rfl
  rw [← hempty, Ne, utf8_inj]
  simp

section Json

variable (hjson : inv.json = true)

include hjson

/-- The invocation prints, whatever its language. -/
theorem prints_withTarget (target : Target) : (inv.withTarget target).Prints := .inl hjson

/-- What is printed for an input is the descriptor of its schema, if there are names for it. -/
theorem textOf_eq_ok_iff : (inv.withTarget target).textOf t input = .ok text ↔
    ∃ m, t.Describes input m ∧ target.CanName m ∧ text = m.dump ++ "\n" := by
  have hprintout (m : Message) (code : String) :
      (inv.withTarget target).printout m code = m.dump ++ "\n" := if_pos hjson
  have hoptions : (inv.withTarget target).options input = ⟨target, Path.fileName? input⟩ := rfl
  rw [textOf, hoptions]
  constructor
  · intro h
    cases hcompile : Codegen.compileFile t input ⟨target, Path.fileName? input⟩ with
    | error e => simp [hcompile, Except.map] at h
    | ok result =>
      obtain ⟨m, code⟩ := result
      obtain ⟨hm, hcode⟩ := Codegen.compileFile_eq_ok_iff.mp hcompile
      rw [hcompile] at h
      cases h
      exact ⟨m, hm, Codegen.exists_code_iff.mp ⟨code, hcode⟩, hprintout m code⟩
  · rintro ⟨m, hm, hname, rfl⟩
    obtain ⟨code, hcode⟩ := Codegen.exists_code_iff.mpr hname
    rw [Codegen.compileFile_eq_ok_iff.mpr ⟨hm, hcode⟩, ← hprintout m code]
    rfl

/-! ### Inputs in order -/

/-- Inputs end for both languages in the same way exactly if names are reached only. -/
theorem processAll_rust_eq_cpp_iff :
    (inv.withTarget .rust).processAll .reliable s inputs =
        (inv.withTarget .cpp).processAll .reliable s inputs ↔
      ReachesNames s.tree inputs := by
  have hrust := prints_withTarget hjson .rust
  have hcpp := prints_withTarget hjson .cpp
  induction inputs generalizing s with
  | nil => exact iff_of_true rfl fun before input after m happend ↦ by simp at happend
  | cons input inputs ih =>
    cases htext : (inv.withTarget .cpp).textOf s.tree input with
    | error e =>
      rw [hrust.processAll_cons, hcpp.processAll_cons, textOf_of_cpp_eq_error htext, htext]
      refine iff_of_true rfl (reachesNames_cons_of_not ?_ inputs)
      rintro ⟨m, hm⟩
      cases htext.symm.trans ((textOf_eq_ok_iff hjson).mpr ⟨m, hm, trivial, rfl⟩)
    | ok text =>
      obtain ⟨m, hm, _, rfl⟩ := (textOf_eq_ok_iff hjson).mp htext
      rw [reachesNames_cons_iff hm]
      cases hrusttext : (inv.withTarget .rust).textOf s.tree input with
      | ok text' =>
        obtain ⟨m', hm', hname, rfl⟩ := (textOf_eq_ok_iff hjson).mp hrusttext
        obtain rfl := hm'.unique hm
        simp [hrust.processAll_cons, hcpp.processAll_cons, htext, hrusttext, ih, hname]
      | error e =>
        -- the descriptor is printed for C++ only, and not taken back
        refine iff_of_false (fun hsame ↦ ?_) fun ⟨hname, _⟩ ↦ ?_
        · have hlt := hcpp.length_output_lt htext (utf8_dump_ne_nil m) inputs
          rw [← hsame, hrust.processAll_cons, hrusttext] at hlt
          exact Nat.lt_irrefl _ hlt
        · cases hrusttext.symm.trans ((textOf_eq_ok_iff hjson).mpr ⟨m, hm, hname, rfl⟩)

/-! ### Runs -/

/-- The inputs of a run that succeeds are schemas with names, and those of no other run are. -/
theorem fst_run_withTarget_eq_ok_iff : ((inv.withTarget target).run t).1 = .ok () ↔
    ∀ input ∈ inv.inputs, ∃ m, t.Describes input m ∧ target.CanName m := by
  rw [run, runOn, (prints_withTarget hjson target).fst_processAll_eq_ok_iff]
  refine forall₂_congr fun input _ ↦ ?_
  simp only [textOf_eq_ok_iff hjson]
  constructor
  · rintro ⟨_, m, hm, hname, _⟩
    exact ⟨m, hm, hname⟩
  · rintro ⟨m, hm, hname⟩
    exact ⟨_, m, hm, hname, rfl⟩

/-- Such a run prints the descriptors in order. -/
theorem run_withTarget_of_describes {messages : List Message}
    (h : List.Forall₂ (fun input m ↦ t.Describes input m ∧ target.CanName m)
      inv.inputs messages) : (inv.withTarget target).run t =
      (.ok (), ⟨t, (messages.map fun m ↦ utf8 (m.dump ++ "\n")).flatten⟩) := by
  refine (prints_withTarget hjson target).run_eq_ok_iff.mpr
    ⟨messages.map fun m ↦ m.dump ++ "\n", ?_, by rw [List.map_map]; rfl⟩
  rw [List.forall₂_map_right_iff]
  exact h.imp fun input m hm ↦ (textOf_eq_ok_iff hjson).mpr ⟨m, hm.1, hm.2, rfl⟩

/-- Schemas with names in Rust are processed for both languages alike, and change no file. -/
theorem exists_processAll_of_names
    (h : ∀ input ∈ inputs, ∃ m, s.tree.Describes input m ∧ Target.CanName .rust m) :
    ∃ s', (inv.withTarget .rust).processAll .reliable s inputs = (.ok (), s') ∧
      (inv.withTarget .cpp).processAll .reliable s inputs = (.ok (), s') ∧ s'.tree = s.tree := by
  have hrust := prints_withTarget hjson .rust
  have hreaches : ReachesNames s.tree inputs := by
    intro before input after m happend _ hm
    obtain ⟨m', hm', hname⟩ := h input (by simp [happend])
    rwa [hm.unique hm']
  have hok : ((inv.withTarget .rust).processAll .reliable s inputs).1 = .ok () := by
    rw [hrust.fst_processAll_eq_ok_iff]
    intro input hinput
    obtain ⟨m, hm, hname⟩ := h input hinput
    exact ⟨_, (textOf_eq_ok_iff hjson).mpr ⟨m, hm, hname, rfl⟩⟩
  rw [← (processAll_rust_eq_cpp_iff hjson).mpr hreaches]
  exact ⟨_, Prod.ext hok rfl, Prod.ext hok rfl, hrust.tree_processAll _ s inputs⟩

/-- Behind inputs with names, the run for Rust ends at the first one without. -/
theorem run_rust_of_append {before after : List String} {e : SchemaError}
    (happend : inv.inputs = before ++ input :: after)
    (hbefore : ∀ earlier ∈ before, ∃ m', t.Describes earlier m' ∧ Target.CanName .rust m')
    (hm : t.Describes input m)
    (hcode : Codegen.generate m ⟨.rust, Path.fileName? input⟩ = .error e) :
    (inv.withTarget .rust).run t = (.error (.schema (some input) e),
      ((({ inv with inputs := before } : Invocation).withTarget .cpp).run t).2) := by
  have hrust := prints_withTarget hjson .rust
  obtain ⟨s, hs, hcpp, htree⟩ := exists_processAll_of_names (s := ⟨t, []⟩) hjson hbefore
  have hfirst : (({ inv with inputs := before } : Invocation).withTarget .cpp).run t =
      (.ok (), s) :=
    (processAll_with_inputs (inv.withTarget .cpp) before _ _ _).trans hcpp
  have hinputs : (inv.withTarget .rust).inputs = before ++ input :: after := happend
  rw [hfirst, run, runOn, hinputs, processAll_append, hs]
  simp only [hrust.processAll_cons, htree, textOf_of_describes hm hcode]

/-- A run that prints descriptors succeeds exactly if every input is a schema with names in the
language, and prints their descriptors in order then. The runs for the two languages are the same
exactly if no schema without names in Rust is reached; the run for Rust ends at the first one. -/
theorem run_withTarget_of_json (t : Tree) :
    (∀ target, ((inv.withTarget target).run t).1 = .ok () ↔
        ∀ input ∈ inv.inputs, ∃ m, t.Describes input m ∧ target.CanName m) ∧
      (∀ target messages, List.Forall₂ (fun input m ↦ t.Describes input m ∧ target.CanName m)
          inv.inputs messages → (inv.withTarget target).run t =
            (.ok (), ⟨t, (messages.map fun m ↦ utf8 (m.dump ++ "\n")).flatten⟩)) ∧
      ((inv.withTarget .rust).run t = (inv.withTarget .cpp).run t ↔
        ReachesNames t inv.inputs) ∧
      ∀ before input after m e, inv.inputs = before ++ input :: after →
        (∀ earlier ∈ before, ∃ m', t.Describes earlier m' ∧ Target.CanName .rust m') →
          t.Describes input m → Codegen.generate m ⟨.rust, Path.fileName? input⟩ = .error e →
            (inv.withTarget .rust).run t = (.error (.schema (some input) e),
              ((({ inv with inputs := before } : Invocation).withTarget .cpp).run t).2) :=
  ⟨fun _ ↦ fst_run_withTarget_eq_ok_iff hjson,
    fun _ _ ↦ run_withTarget_of_describes hjson,
    processAll_rust_eq_cpp_iff hjson,
    fun _ _ _ _ _ ↦ run_rust_of_append hjson⟩

end Json

/-- Two schemas, of which the second has no name in Rust. -/
def namelessSchemas : Tree := .directory [
  ("a.umsg", .file (utf8 "struct A{bool b;};")),
  ("b.umsg", .file (utf8 "struct _{bool b;};"))]

/-- A run that prints the descriptors of both. -/
def namelessRun : Invocation := ⟨["a.umsg", "b.umsg"], "out", .rust, false, true⟩

/-- The first one is a schema. -/
private theorem describes_first : namelessSchemas.Describes "a.umsg"
    (Message.compose "A" none [⟨.bool, "b", none⟩]) :=
  ⟨_, ⟨_, rfl, ofUtf8?_utf8 _⟩, by decide +kernel⟩

/-- The second one is a schema. -/
private theorem describes_second : namelessSchemas.Describes "b.umsg"
    (Message.compose "_" none [⟨.bool, "b", none⟩]) :=
  ⟨_, ⟨_, rfl, ofUtf8?_utf8 _⟩, by decide +kernel⟩

/-- The run for Rust ends at the second one, behind what the run over the first one does. -/
theorem run_namelessSchemas : namelessRun.json = true ∧
    (namelessRun.withTarget .rust).run namelessSchemas =
      (.error (.schema (some "b.umsg") (.unspellableName "_")),
        ((({ namelessRun with inputs := ["a.umsg"] } : Invocation).withTarget .cpp).run
          namelessSchemas).2) := by
  have hjson : namelessRun.json = true := rfl
  refine ⟨hjson, ?_⟩
  obtain ⟨_, _, _, hend⟩ := run_withTarget_of_json hjson namelessSchemas
  refine hend ["a.umsg"] "b.umsg" [] _ _ rfl ?_ describes_second (by decide +kernel)
  rw [List.forall_mem_singleton]
  exact ⟨_, describes_first, by decide +kernel⟩

/-- Both inputs are schemas, and the run for C++ prints their descriptors, while the one for Rust
fails. -/
theorem run_rust_ne_cpp_of_json : namelessRun.json = true ∧
    (∀ input ∈ namelessRun.inputs, ∃ m, namelessSchemas.Describes input m) ∧
      ((namelessRun.withTarget .cpp).run namelessSchemas).1 = .ok () ∧
        ((namelessRun.withTarget .rust).run namelessSchemas).1 =
          .error (.schema (some "b.umsg") (.unspellableName "_")) := by
  refine ⟨rfl, ?_, by decide +kernel, by decide +kernel⟩
  simp only [namelessRun, List.forall_mem_cons]
  exact ⟨⟨_, describes_first⟩, ⟨_, describes_second⟩, by simp⟩

end Invocation

end WireSchema
