import WireSchema.Catalog
import WireSchema.Codegen.Generate
import WireSchema.Proofs.Text.Lines

/-!
# Source names in generated code

The name of the schema file goes into the banner and nowhere else. There it is written as it is, so
that a name with line feeds adds lines of its own, and those that are no comments are code. The main
statement says that a name never decides whether there is code, and what the code with a name is
apart from comments: that without one, and in one place the lines that the name adds.
-/

namespace WireSchema

open Text

namespace Text

/-- A text without a character before another one belongs to its first part. -/
theorem splitOn_append_of_not_mem {c : Char} {s : List Char} (h : c ∉ s) (t : List Char) :
    (s ++ t).splitOn c = (t.splitOn c).modifyHead (s ++ ·) := by
  induction s with
  | nil => exact (congrFun List.modifyHead_id _).symm
  | cons d s ih =>
    rw [List.mem_cons, not_or] at h
    obtain ⟨hd, hs⟩ := h
    rw [List.cons_append, List.splitOn_cons_eq_if_modifyHead, if_neg (by simpa using Ne.symm hd),
      ih hs, List.modifyHead_modifyHead]
    rfl

/-- A part of a text has characters of the text only. -/
theorem mem_of_mem_splitOn {c : Char} {s part : List Char} (h : part ∈ s.splitOn c) :
    part ⊆ s := by
  induction s generalizing part with
  | nil =>
    obtain rfl := List.mem_singleton.mp h
    exact List.Subset.refl _
  | cons d s ih =>
    rw [List.splitOn_cons_eq_if_modifyHead] at h
    split at h
    · rcases List.mem_cons.mp h with rfl | h
      · exact List.nil_subset _
      · exact List.subset_cons_of_subset _ (ih h)
    · cases hparts : s.splitOn c with
      | nil => simp [hparts] at h
      | cons first parts =>
        rw [hparts] at ih h
        rcases List.mem_cons.mp h with rfl | h
        · exact List.cons_subset_cons _ (ih List.mem_cons_self)
        · exact List.subset_cons_of_subset _ (ih (List.mem_cons_of_mem _ h))

end Text

/-- The name of a file has characters of its path only. -/
theorem Path.fileName?_subset {path name : String} (h : fileName? path = some name) :
    name.toList ⊆ path.toList := by
  obtain ⟨hlast, _⟩ := Option.filter_eq_some_iff.mp h
  have hpart : name ∈ parts path := (List.mem_filter.mp (List.mem_of_getLast? hlast)).1
  obtain ⟨part, hmem, rfl⟩ := List.mem_map.mp hpart
  rw [String.toList_ofList]
  exact mem_of_mem_splitOn hmem

namespace Codegen

/-- Whether the line is a comment. -/
def isComment (line : List Char) : Bool := ['/', '/'].isPrefixOf line

/-- The lines of a text that are no comments. -/
def withoutComments (text : String) : List (List Char) :=
  (text.toList.splitOn '\n').filter fun line ↦ !isComment line

/-- The lines of a source name behind its first one that are no comments. -/
def addedLines (name : String) : List (List Char) :=
  ((name.toList.splitOn '\n').tail).filter fun line ↦ !isComment line

/-! ### Lines of code -/

/-- Joined texts have the lines of each of them. -/
theorem withoutComments_joinLines {texts : List String} (h : texts ≠ []) :
    withoutComments (joinLines texts) = texts.flatMap withoutComments := by
  have hmap : texts.map String.toList ≠ [] := by simpa using h
  rw [withoutComments, toList_joinLines, splitOn_joinChars hmap, List.filter_flatMap,
    List.flatMap_map]
  rfl

/-- The line of a source name is a comment up to its first line feed. -/
theorem withoutComments_source (name : String) :
    withoutComments ("// Source: " ++ name) = addedLines name := by
  have hfeed : '\n' ∉ "// Source: ".toList := by decide
  -- the words before the name make a comment of its first line only
  rw [withoutComments, String.toList_append, splitOn_append_of_not_mem hfeed, addedLines]
  cases name.toList.splitOn '\n' with
  | nil => rfl
  | cons line lines => rfl

/-- The lines of a banner that are no comments are those that its source name adds. -/
theorem flatMap_banner (sourceName : Option String) :
    (banner sourceName).flatMap withoutComments = sourceName.elim [] addedLines := by
  have hbefore : [bannerRule, "// This file was generated by umsg-gen."].flatMap
      withoutComments = [] := by decide +kernel
  have hafter : ["//", "// DO NOT EDIT THIS FILE DIRECTLY.",
      "// Edit the corresponding .umsg schema and re-run umsg-gen instead.", bannerRule].flatMap
        withoutComments = [] := by decide +kernel
  rw [banner, List.flatMap_append, List.flatMap_append, hbefore, hafter, List.nil_append,
    List.append_nil]
  cases sourceName with
  | none => rfl
  | some name =>
    rw [Option.map_some, Option.toList_some, List.flatMap_singleton, withoutComments_source]
    rfl

/-! ### Code with and without a source name -/

/-- A header is its banner in a fixed text. -/
theorem exists_lines_cpp (m : Message) : ∃ before after, ∀ sourceName,
    CppHeader.lines m sourceName = before ++ (banner sourceName ++ after) := by
  simp only [CppHeader.lines, List.append_assoc]
  exact ⟨_, _, fun _ ↦ rfl⟩

/-- A module is its banner before a fixed text. -/
theorem exists_lines_rust (m : Message) (name : String) (members : List RustModule.Member) :
    ∃ after, ∀ sourceName,
      RustModule.lines m sourceName name members = banner sourceName ++ after := by
  simp only [RustModule.lines, List.append_assoc]
  exact ⟨_, fun _ ↦ rfl⟩

/-- There is no code, whatever the source name is, or the code is a banner in a fixed text. -/
theorem generate_cases (m : Message) (target : Target) :
    (∃ e, ∀ sourceName, generate m ⟨target, sourceName⟩ = .error e) ∨
      ∃ before after, ∀ sourceName, generate m ⟨target, sourceName⟩ =
        .ok (joinLines (before ++ (banner sourceName ++ after))) := by
  cases target with
  | cpp =>
    obtain ⟨before, after, hlines⟩ := exists_lines_cpp m
    refine .inr ⟨before, after, fun sourceName ↦ ?_⟩
    rw [← hlines]
    rfl
  | rust =>
    have hgenerate (sourceName : Option String) : generate m ⟨.rust, sourceName⟩ =
      RustModule.render m sourceName := rfl
    simp only [hgenerate, RustModule.render]
    cases RustModule.structName? m with
    | error e => exact .inl ⟨e, fun _ ↦ rfl⟩
    | ok name =>
      cases RustModule.members? m with
      | error e => exact .inl ⟨e, fun _ ↦ rfl⟩
      | ok members =>
        obtain ⟨after, hlines⟩ := exists_lines_rust m name members
        refine .inr ⟨[], after, fun sourceName ↦ ?_⟩
        rw [List.nil_append, ← hlines]
        rfl

/-- There is no code, whatever the source name is, or the code is fixed apart from comments and the
lines that the source name adds. -/
theorem withoutComments_cases (m : Message) (target : Target) :
    (∃ e, ∀ sourceName, generate m ⟨target, sourceName⟩ = .error e) ∨
      ∃ before after, ∀ sourceName, ∃ code, generate m ⟨target, sourceName⟩ = .ok code ∧
        withoutComments code = before ++ (sourceName.elim [] addedLines ++ after) := by
  rcases generate_cases m target with herror | ⟨before, after, hcode⟩
  · exact .inl herror
  · refine .inr ⟨before.flatMap withoutComments, after.flatMap withoutComments, fun sourceName ↦
      ⟨_, hcode sourceName, ?_⟩⟩
    have hne : before ++ (banner sourceName ++ after) ≠ [] := by simp [banner]
    rw [withoutComments_joinLines hne, List.flatMap_append, List.flatMap_append, flatMap_banner]

/-- Code without a source name becomes code with one, which has the lines that the name adds in one
place. -/
theorem exists_named_of_plain {m : Message} {target : Target} {plain : String}
    (h : generate m ⟨target, none⟩ = .ok plain) (sourceName : Option String) :
    ∃ named, generate m ⟨target, sourceName⟩ = .ok named ∧
      ∃ before after, withoutComments plain = before ++ after ∧
        withoutComments named = before ++ (sourceName.elim [] addedLines ++ after) := by
  rcases withoutComments_cases m target with ⟨e, herror⟩ | ⟨before, after, hcode⟩
  · cases h.symm.trans (herror none)
  · obtain ⟨plain', hplain, hplainLines⟩ := hcode none
    obtain ⟨named, hnamed, hnamedLines⟩ := hcode sourceName
    cases h.symm.trans hplain
    exact ⟨named, hnamed, before, after, hplainLines, hnamedLines⟩

/-! ### Paths -/

/-- The name in a path without line feeds adds no lines. -/
theorem addedLines_of_not_mem {path : String} (h : '\n' ∉ path.toList) :
    (Path.fileName? path).elim [] addedLines = [] := by
  cases hname : Path.fileName? path with
  | none => rfl
  | some name =>
    have hfeed : '\n' ∉ name.toList := fun hmem ↦ h (Path.fileName?_subset hname hmem)
    rw [Option.elim_some, addedLines, List.splitOn_eq_singleton hfeed]
    rfl

/-- Whether there is code for a message, and why not, does not depend on the path of the schema
file. The code with and without its name has the same lines before and behind the banner, comments
apart, and between them just those that the name adds. So the two have the same code exactly if the
name adds no lines, and one in a path without line feeds adds none. -/
theorem withoutComments_withSource (m : Message) (target : Target) (path : String) :
    (∀ e, generate m (Options.withSource ⟨target, none⟩ path) = .error e ↔
        generate m ⟨target, none⟩ = .error e) ∧
      ∀ plain, generate m ⟨target, none⟩ = .ok plain →
        ∃ named, generate m (Options.withSource ⟨target, none⟩ path) = .ok named ∧
          (∃ before after, withoutComments plain = before ++ after ∧ withoutComments named =
            before ++ ((Path.fileName? path).elim [] addedLines ++ after)) ∧
          (withoutComments named = withoutComments plain ↔
            (Path.fileName? path).elim [] addedLines = []) ∧
          ('\n' ∉ path.toList → withoutComments named = withoutComments plain) := by
  have hsource : Options.withSource ⟨target, none⟩ path = ⟨target, Path.fileName? path⟩ := rfl
  rw [hsource]
  refine ⟨fun e ↦ ?_, fun plain hplain ↦ ?_⟩
  · rcases withoutComments_cases m target with ⟨e', herror⟩ | ⟨_, _, hcode⟩
    · rw [herror, herror]
    · obtain ⟨plain, hplain, _⟩ := hcode none
      obtain ⟨named, hnamed, _⟩ := hcode (Path.fileName? path)
      rw [hplain, hnamed]
      exact iff_of_false nofun nofun
  · obtain ⟨named, hnamed, before, after, hplainLines, hnamedLines⟩ :=
      exists_named_of_plain hplain (Path.fileName? path)
    have hsame : withoutComments named = withoutComments plain ↔
        (Path.fileName? path).elim [] addedLines = [] := by
      rw [hplainLines, hnamedLines, List.append_cancel_left_eq]
      exact List.append_left_eq_self
    exact ⟨named, hnamed, ⟨before, after, hplainLines, hnamedLines⟩, hsame,
      fun hfeed ↦ hsame.mpr (addedLines_of_not_mem hfeed)⟩

/-- The name of a schema file for a command to a lamp shows in a comment only. -/
theorem withoutComments_ledCommand : ∃ plain named,
    generate Catalog.ledCommand ⟨.cpp, none⟩ = .ok plain ∧
      generate Catalog.ledCommand (Options.withSource ⟨.cpp, none⟩ "schemas/led_command.umsg") =
        .ok named ∧ withoutComments named = withoutComments plain := by
  obtain ⟨plain, hplain⟩ : ∃ plain, generate Catalog.ledCommand ⟨.cpp, none⟩ = .ok plain :=
    ⟨_, rfl⟩
  obtain ⟨named, hnamed, _, _, hsame⟩ :=
    (withoutComments_withSource Catalog.ledCommand .cpp "schemas/led_command.umsg").2 plain hplain
  exact ⟨plain, named, hplain, hnamed, hsame (by decide +kernel)⟩

/-- A name with a line feed may add a line of code. -/
theorem withoutComments_ne_of_feed : ∃ m plain named,
    Message.parse "struct A{bool b;};" = .ok m ∧ generate m ⟨.cpp, none⟩ = .ok plain ∧
      generate m (Options.withSource ⟨.cpp, none⟩ "s/a\nint b;.umsg") = .ok named ∧
      "int b;.umsg".toList ∈ withoutComments named ∧
      withoutComments named ≠ withoutComments plain := by
  have hparse : Message.parse "struct A{bool b;};" =
      .ok (Message.compose "A" none [⟨.bool, "b", none⟩]) := by decide +kernel
  have hname : Path.fileName? "s/a\nint b;.umsg" = some "a\nint b;.umsg" := by decide +kernel
  have hadded : addedLines "a\nint b;.umsg" = ["int b;.umsg".toList] := by decide +kernel
  obtain ⟨plain, hplain⟩ : ∃ plain,
      generate (Message.compose "A" none [⟨.bool, "b", none⟩]) ⟨.cpp, none⟩ = .ok plain := ⟨_, rfl⟩
  obtain ⟨named, hnamed, before, after, hplainLines, hnamedLines⟩ :=
    exists_named_of_plain hplain (Path.fileName? "s/a\nint b;.umsg")
  refine ⟨_, plain, named, hparse, hplain, hnamed, ?_, ?_⟩
  · simp [hnamedLines, hname, hadded]
  · simp [hnamedLines, hplainLines, hname, hadded]

end Codegen

end WireSchema
