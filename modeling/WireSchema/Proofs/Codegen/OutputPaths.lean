import WireSchema.Codegen.Generate
import WireSchema.Proofs.Files.Segments
import WireSchema.Proofs.Schema.Acceptance
import WireSchema.Schema.Compose

/-!
# Where generated code is placed

The names in an accepted schema have no slashes, and those between the dots of its package no dots
either, while the name of the generated file has a dot before its extension. So the steps to a file
tell its package, name and language, and no file stands where another one needs a directory. The
main statement says this of the paths below any output directory.
-/

namespace WireSchema

open Text

/-- The package in a preamble is a dotted name. -/
theorem Grammar.Preamble.isDotted_package {s : List Char} {package : Option String}
    (h : Preamble s package) : ∀ p ∈ package, isDotted p.toList = true := by
  cases h with
  | blank _ => exact nofun
  | package _ _ hname _ _ =>
    intro p hp
    cases hp
    rwa [String.toList_ofList]

/-- So is the package in a schema. -/
theorem Grammar.Schema.isDotted_package {s : List Char} {structName : String}
    {package : Option String} {fields : List Field} (h : Schema s structName package fields) :
    ∀ p ∈ package, isDotted p.toList = true := by
  cases h with
  | intro hpre _ _ _ _ _ _ => exact hpre.isDotted_package

namespace Message

/-- The struct is named by a name, and the package by a dotted one. -/
structure IsNamed (m : Message) : Prop where
  isName_structName : isName m.structName.toList = true
  isDotted_package : ∀ p ∈ m.package, isDotted p.toList = true

/-- An accepted schema has such names. -/
theorem isNamed_of_parse {source : String} {m : Message} (h : parse source = .ok m) :
    m.IsNamed := by
  have hschema := readsTo_iff.mp (parseChars_eq_ok_iff.mp h).1
  exact ⟨hschema.isName_names.1, hschema.isDotted_package⟩

variable {m m' : Message}

/-- The parts of a package are names. -/
theorem IsNamed.isName_packageSegments (h : m.IsNamed) :
    ∀ s ∈ m.packageSegments, isName s.toList = true := by
  have hdotted := h.isDotted_package
  unfold packageSegments
  split
  · exact nofun
  · next p hp =>
    rw [hp] at hdotted
    intro s hs
    obtain ⟨part, hpart, rfl⟩ := List.mem_map.mp hs
    rw [String.toList_ofList]
    exact isName_of_mem_splitOn (hdotted p rfl) hpart

/-- A package is determined by its parts. -/
theorem packageSegments_inj : m.packageSegments = m'.packageSegments ↔ m.package = m'.package := by
  refine ⟨fun h ↦ ?_, fun h ↦ by simp only [packageSegments, h]⟩
  have hne (p : String) : (p.toList.splitOn '.').map String.ofList ≠ [] := by
    simp
  unfold packageSegments at h
  cases hp : m.package with
  | none =>
    cases hp' : m'.package with
    | none => rfl
    | some p' =>
      rw [hp, hp'] at h
      exact absurd h.symm (hne p')
  | some p =>
    cases hp' : m'.package with
    | none =>
      rw [hp, hp'] at h
      exact absurd h (hne p)
    | some p' =>
      rw [hp, hp'] at h
      have hsplit : p.toList.splitOn '.' = p'.toList.splitOn '.' :=
        (List.map_inj_right fun _ _ ↦ String.ofList_inj.mp).mp h
      have hjoin := congrArg (['.'].intercalate ·) hsplit
      simp only [List.intercalate_splitOn] at hjoin
      rw [String.toList_inj.mp hjoin]

end Message

/-- A name is a segment of a path. -/
theorem Path.isSegment_of_isName {name : String} (h : isName name.toList = true) :
    IsSegment name where
  ne_empty he := by simp [he, isName] at h
  not_mem_slash := not_mem_of_isName h (by decide)
  ne_dot he := by
    subst he
    revert h
    decide
  ne_dotDot he := by
    subst he
    revert h
    decide

namespace Codegen

/-- The steps from the output directory to the code of a message. -/
def outputSteps (m : Message) (target : Target) : List String :=
  m.packageSegments ++ [m.structName ++ "." ++ target.extension]

variable {m m' : Message} {target target' : Target}

/-- The name of a generated file as characters. -/
theorem toList_fileName (m : Message) (target : Target) :
    (m.structName ++ "." ++ target.extension).toList =
      m.structName.toList ++ '.' :: target.extension.toList := by
  simp only [String.toList_append, List.append_assoc]
  rfl

/-- Each step is a segment. -/
theorem isSegment_of_mem_outputSteps (h : m.IsNamed) (target : Target) :
    ∀ s ∈ outputSteps m target, Path.IsSegment s := by
  have hfile : Path.IsSegment (m.structName ++ "." ++ target.extension) := by
    have hlength : 4 ≤ (m.structName ++ "." ++ target.extension).toList.length := by
      have hstruct := List.length_pos_iff.mpr (ne_nil_of_isName h.isName_structName)
      have hextension : 2 ≤ target.extension.toList.length := by cases target <;> decide
      rw [toList_fileName, List.length_append, List.length_cons]
      omega
    have hne {s : String} (hs : s.toList.length < 4) :
        m.structName ++ "." ++ target.extension ≠ s := by
      rintro rfl
      omega
    refine ⟨hne (by decide), ?_, hne (by decide), hne (by decide)⟩
    have hslash : '/' ∉ target.extension.toList := by cases target <;> decide
    rw [toList_fileName, List.mem_append, List.mem_cons, not_or, not_or]
    exact ⟨not_mem_of_isName h.isName_structName (by decide), by decide, hslash⟩
  intro s hs
  rcases List.mem_append.mp hs with hs | hs
  · exact Path.isSegment_of_isName (h.isName_packageSegments s hs)
  · rwa [List.mem_singleton.mp hs]

/-- The steps are pushed to the output directory one after the other. -/
theorem outputPath_eq_foldl_push (outDir : String) (m : Message) (target : Target) :
    outputPath outDir m target = (outputSteps m target).foldl Path.push outDir := by
  rw [outputSteps, List.foldl_append]
  rfl

/-- The steps lead from the output directory to the code. -/
theorem steps_outputPath (h : m.IsNamed) (outDir : String) (target : Target) :
    Path.steps (outputPath outDir m target) = Path.steps outDir ++ outputSteps m target := by
  rw [outputPath_eq_foldl_push]
  exact Path.steps_foldl_push (isSegment_of_mem_outputSteps h target) outDir

/-- The steps lead no place up. -/
theorem dotDot_not_mem_parts_outputPath (h : m.IsNamed) {outDir : String}
    (hout : ".." ∉ Path.parts outDir) (target : Target) :
    ".." ∉ Path.parts (outputPath outDir m target) := by
  rw [outputPath_eq_foldl_push]
  exact Path.dotDot_not_mem_parts_foldl_push (isSegment_of_mem_outputSteps h target) hout

/-! ### What the steps determine -/

/-- The name of a generated file determines the struct and the language. -/
theorem fileName_inj (h : m.IsNamed) (h' : m'.IsNamed)
    (he : m.structName ++ "." ++ target.extension = m'.structName ++ "." ++ target'.extension) :
    m.structName = m'.structName ∧ target = target' := by
  have hdot : '.' ∉ m.structName.toList := not_mem_of_isName h.isName_structName (by decide)
  have hdot' : '.' ∉ m'.structName.toList := not_mem_of_isName h'.isName_structName (by decide)
  have hchars := congrArg (fun s ↦ s.toList.splitOn '.') he
  simp only [toList_fileName, List.splitOn_append_cons_self, List.splitOn_eq_singleton hdot,
    List.splitOn_eq_singleton hdot', List.singleton_append, List.cons.injEq] at hchars
  obtain ⟨hname, hextension⟩ := hchars
  refine ⟨String.toList_inj.mp hname, ?_⟩
  cases target <;> cases target' <;> first | rfl | exact absurd hextension (by decide)

/-- The steps determine the package, the struct and the language. -/
theorem outputSteps_inj (h : m.IsNamed) (h' : m'.IsNamed) :
    outputSteps m target = outputSteps m' target' ↔
      m.package = m'.package ∧ m.structName = m'.structName ∧ target = target' := by
  constructor
  · intro he
    obtain ⟨hsegments, hfile⟩ := List.append_inj' he rfl
    exact ⟨Message.packageSegments_inj.mp hsegments,
      fileName_inj h h' (List.singleton_inj.mp hfile)⟩
  · rintro ⟨hpackage, hname, rfl⟩
    rw [outputSteps, outputSteps, Message.packageSegments_inj.mpr hpackage, hname]

/-- The name of a file has a dot, so it is no part of a package. -/
theorem eq_of_prefix_outputSteps (h' : m'.IsNamed)
    (hbelow : outputSteps m target <+: outputSteps m' target') :
    outputSteps m target = outputSteps m' target' := by
  rcases List.prefix_concat_iff.mp hbelow with he | hsegments
  · exact he
  · have hmem : m.structName ++ "." ++ target.extension ∈ m'.packageSegments :=
      hsegments.subset (List.mem_append_right _ (List.mem_singleton_self _))
    have hdot := not_mem_of_isName (h'.isName_packageSegments _ hmem) (c := '.') (by decide)
    rw [toList_fileName] at hdot
    exact absurd (List.mem_append_right _ List.mem_cons_self) hdot

/-- The code of an accepted schema is placed below the output directory, a directory for each part
of the package and a file in it. The paths of two of them are the same exactly if the packages,
names and languages are, and neither is the path of a directory that the other one goes through. -/
theorem outputPath_of_parse {source source' : String} {m m' : Message}
    (h : Message.parse source = .ok m) (h' : Message.parse source' = .ok m') (outDir : String)
    (target target' : Target) :
    (∀ s ∈ outputSteps m target, Path.IsSegment s) ∧
    outputPath outDir m target =
      outDir ++ (if outDir = "" ∨ outDir.toList.getLast? = some '/' then "" else "/") ++
        "/".intercalate (outputSteps m target) ∧
    (outputPath outDir m target = outputPath outDir m' target' ↔
      m.package = m'.package ∧ m.structName = m'.structName ∧ target = target') ∧
    (Path.steps (outputPath outDir m target) <+: Path.steps (outputPath outDir m' target') →
      outputPath outDir m target = outputPath outDir m' target') ∧
    ¬(outputPath outDir m target ++ "/").toList <+: (outputPath outDir m' target').toList := by
  have hm := Message.isNamed_of_parse h
  have hm' := Message.isNamed_of_parse h'
  have hpath (hs : outputSteps m target = outputSteps m' target') :
      outputPath outDir m target = outputPath outDir m' target' := by
    rw [outputPath_eq_foldl_push, outputPath_eq_foldl_push, hs]
  have hbelow (hp : Path.steps (outputPath outDir m target) <+:
      Path.steps (outputPath outDir m' target')) :
      outputPath outDir m target = outputPath outDir m' target' := by
    rw [steps_outputPath hm, steps_outputPath hm', List.prefix_append_right_inj] at hp
    exact hpath (eq_of_prefix_outputSteps hm' hp)
  refine ⟨isSegment_of_mem_outputSteps hm target, ?_, ?_, hbelow, ?_⟩
  · rw [outputPath_eq_foldl_push]
    exact Path.foldl_push (List.concat_ne_nil _ _) (isSegment_of_mem_outputSteps hm target) outDir
  · constructor
    · intro he
      have hsteps := congrArg Path.steps he
      rw [steps_outputPath hm, steps_outputPath hm', List.append_cancel_left_eq] at hsteps
      exact (outputSteps_inj hm hm').mp hsteps
    · intro hsame
      exact hpath ((outputSteps_inj hm hm').mpr hsame)
  · rintro ⟨rest, hrest⟩
    have htext : outputPath outDir m' target' =
        outputPath outDir m target ++ "/" ++ String.ofList rest := by
      rw [← String.toList_inj, String.toList_append, String.toList_ofList, hrest]
    have hsteps : Path.steps (outputPath outDir m target) <+:
        Path.steps (outputPath outDir m' target') := by
      rw [htext, Path.steps_append_slash]
      exact List.prefix_append _ _
    have hlength := congrArg (fun p : String ↦ p.toList.length) ((hbelow hsteps).trans htext)
    simp only [String.toList_append, List.length_append] at hlength
    have hslash : "/".toList.length = 1 := rfl
    omega

/-- A struct may have the name of a directory that another one is placed in: its file does not. -/
theorem outputPath_beside_directory : ∃ m m',
    Message.parse "package a;struct b{bool c;};" = .ok m ∧
      Message.parse "package a.b;struct C{bool c;};" = .ok m' ∧
      outputPath "out" m .rust = "out/a/b.rs" ∧ outputPath "out/" m' .cpp = "out/a/b/C.hpp" ∧
      ¬(outputPath "out" m .rust ++ "/").toList <+: (outputPath "out" m' .rust).toList := by
  have h : Message.parse "package a;struct b{bool c;};" =
      .ok (Message.compose "b" (some "a") [⟨.bool, "c", none⟩]) := by decide +kernel
  have h' : Message.parse "package a.b;struct C{bool c;};" =
      .ok (Message.compose "C" (some "a.b") [⟨.bool, "c", none⟩]) := by decide +kernel
  exact ⟨_, _, h, h', (outputPath_of_parse h h' "out" .rust .rust).2.1.trans (by decide +kernel),
    (outputPath_of_parse h' h "out/" .cpp .cpp).2.1.trans (by decide +kernel),
    (outputPath_of_parse h h' "out" .rust .rust).2.2.2.2⟩

end Codegen

end WireSchema
