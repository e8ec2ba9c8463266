import WireSchema.Proofs.Command.Deliveries

/-!
# Runs that write files

A run reads each input from what the inputs before it have left. If the inputs have different names
and no code is placed where an input is, each of them finds what was there at the start, and a place
for its code that is free as it was. So the run leaves the code of every input at its place and all
other files as they were, whatever the order of the inputs is, and after it every file is up to
date. The main statement says this of all such runs that succeed.
-/

namespace WireSchema.Invocation

open Text

/-- What the writes for the inputs of a run did, up to the first failure. -/
def outcomes (inv : Invocation) (s : Session) : List String → List WriteOutcome
  | [] => []
  | input :: inputs =>
    (inv.outcome? s input).toList ++
      match inv.process .reliable s input with
      | (.error _, _) => []
      | (.ok (), s') => inv.outcomes s' inputs

/-- The results for inputs that are named without `..` are written to files; the inputs yield
messages of different names, and none of them is where code is placed. -/
structure WritesApart (inv : Invocation) (t : Tree) (inputs : List String) : Prop
    extends inv.WritesFiles where
  dots_inputs : ∀ input ∈ inputs, ".." ∉ Path.parts input
  names_ne : inputs.Pairwise fun input input' ↦ ∀ m code m' code',
    inv.Yields t input m code → inv.Yields t input' m' code' →
      (m.package, m.structName) ≠ (m'.package, m'.structName)
  codePlace_ne : ∀ input ∈ inputs, ∀ input' ∈ inputs, ∀ m code,
    inv.Yields t input m code → inv.codePlace m ≠ Path.steps input'

variable {inv : Invocation} {devices : Devices} {t t' t₁ : Tree} {s s' : Session}
  {input : String} {inputs inputs' : List String} {m m' : Message} {code code' : String}

/-! ### What the first input leaves to the others -/

section Step

variable (hrun : inv.WritesApart t (input :: inputs)) (hyields : inv.Yields t input m code)
  (hfits : inv.Fits t m) (hwrites : t.Writes (inv.codePlace m) (utf8 code) t₁)

include hrun hyields hfits hwrites

/-- The other inputs yield the same. -/
theorem yields_iff_of_writes {other : String} (hother : other ∈ inputs) (m' : Message)
    (code' : String) : inv.Yields t₁ other m' code' ↔ inv.Yields t other m' code' := by
  have hmem : other ∈ input :: inputs := List.mem_cons_of_mem _ hother
  refine yields_congr (hrun.dots_inputs other hmem) (hwrites.file?_of_ne hfits.admits ?_)
  exact (hrun.codePlace_ne input List.mem_cons_self other hmem m code hyields).symm

/-- Their code can be written as before. -/
theorem fits_iff_of_writes {other : String} (hother : other ∈ inputs)
    (hyields' : inv.Yields t other m' code') : inv.Fits t₁ m' ↔ inv.Fits t m' := by
  have hne := (List.pairwise_cons.mp hrun.names_ne).1 other hother m code m' code' hyields hyields'
  have hadmits : t₁.Admits (inv.codePlace m') ↔ t.Admits (inv.codePlace m') :=
    hwrites.admits_iff hfits.admits
      (not_prefix_codePlace hyields.isNamed hyields'.isNamed hne)
      (not_prefix_codePlace hyields'.isNamed hyields.isNamed hne.symm)
  exact ⟨fun h ↦ ⟨h.namesFile, hadmits.mp h.admits⟩, fun h ↦ ⟨h.namesFile, hadmits.mpr h.admits⟩⟩

/-- They still write apart. -/
theorem writesApart_of_writes : inv.WritesApart t₁ inputs := by
  have hyields_iff {other : String} (hother : other ∈ inputs) :=
    yields_iff_of_writes hrun hyields hfits hwrites hother
  refine ⟨hrun.toWritesFiles, fun other hother ↦ hrun.dots_inputs other (.tail _ hother), ?_, ?_⟩
  · refine (List.pairwise_cons.mp hrun.names_ne).2.imp_of_mem ?_
    intro a b ha hb hab m' code' m'' code'' ha' hb'
    exact hab m' code' m'' code'' ((hyields_iff ha m' code').mp ha')
      ((hyields_iff hb m'' code'').mp hb')
  · intro a ha b hb m' code' ha'
    exact hrun.codePlace_ne a (.tail _ ha) b (.tail _ hb) m' code'
      ((hyields_iff ha m' code').mp ha')

end Step

/-! ### Runs -/

/-- The code of each input is at its place, and the other files are those of the start. -/
structure Placed (inv : Invocation) (t : Tree) (inputs : List String) (t' : Tree) : Prop where
  file?_codePlace : ∀ input ∈ inputs, ∀ m code, inv.Yields t input m code →
    t'.file? (inv.codePlace m) = some (utf8 code)
  file?_of_ne : ∀ l, (∀ input ∈ inputs, ∀ m code, inv.Yields t input m code →
    l ≠ inv.codePlace m) → t'.file? l = t.file? l

/-- The order of the inputs does not decide what files there are in the end. -/
theorem Placed.file?_eq {t'' : Tree} (h : inv.Placed t inputs t') (h' : inv.Placed t inputs' t'')
    (hmem : ∀ input, input ∈ inputs' ↔ input ∈ inputs) (l : Location) :
    t''.file? l = t'.file? l := by
  by_cases hl : ∃ input ∈ inputs, ∃ m code, inv.Yields t input m code ∧ l = inv.codePlace m
  · obtain ⟨input, hinput, m, code, hyields, rfl⟩ := hl
    rw [h.file?_codePlace input hinput m code hyields,
      h'.file?_codePlace input ((hmem input).mpr hinput) m code hyields]
  · have hne : ∀ input ∈ inputs, ∀ m code, inv.Yields t input m code → l ≠ inv.codePlace m :=
      fun input hinput m code hyields he ↦ hl ⟨input, hinput, m, code, hyields, he⟩
    rw [h.file?_of_ne l hne, h'.file?_of_ne l fun input hinput ↦ hne input ((hmem input).mp hinput)]

/-- The inputs yield afterwards what they did at the start. -/
theorem Placed.yields_iff (h : inv.Placed t inputs t') (hrun : inv.WritesApart t inputs)
    (hinput : input ∈ inputs) : inv.Yields t' input m code ↔ inv.Yields t input m code := by
  refine yields_congr (hrun.dots_inputs input hinput) (h.file?_of_ne _ ?_)
  intro other hother m' code' hother'
  exact (hrun.codePlace_ne other hother input hinput m' code' hother').symm

/-- The code of the first input is placed before that of the others. -/
theorem Placed.cons (hrun : inv.WritesApart t (input :: inputs))
    (hyields : inv.Yields t input m code) (hfits : inv.Fits t m)
    (hwrites : t.Writes (inv.codePlace m) (utf8 code) t₁) (h : inv.Placed t₁ inputs t') :
    inv.Placed t (input :: inputs) t' := by
  have hyields_iff {other : String} (hother : other ∈ inputs) :=
    yields_iff_of_writes hrun hyields hfits hwrites hother
  constructor
  · intro other hother m' code' hyields'
    cases hother with
    | head =>
      obtain ⟨rfl, rfl⟩ := hyields.unique hyields'
      rw [h.file?_of_ne, hwrites.file?_self]
      intro other hother m' code' hother'
      have hother' := (hyields_iff hother m' code').mp hother'
      have hne := (List.pairwise_cons.mp hrun.names_ne).1 other hother _ _ _ _ hyields hother'
      exact codePlace_ne hyields.isNamed hother'.isNamed hne
    | tail _ hother =>
      exact h.file?_codePlace other hother m' code' ((hyields_iff hother m' code').mpr hyields')
  · intro l hl
    rw [h.file?_of_ne, hwrites.file?_of_ne hfits.admits (hl input (.head _) m code hyields)]
    intro other hother m' code' hother'
    exact hl other (.tail _ hother) m' code' ((hyields_iff hother m' code').mp hother')

/-- A run that succeeds has written the code of each input, and could have written it at the start
already. -/
theorem WritesApart.processAll_eq_ok (hrun : inv.WritesApart s.tree inputs)
    (h : inv.processAll devices s inputs = (.ok (), s')) :
    (∀ input ∈ inputs, ∃ m code, inv.Yields s.tree input m code ∧ inv.Fits s.tree m) ∧
      ∃ t', s' = { s with tree := t' } ∧ inv.Placed s.tree inputs t' := by
  induction inputs generalizing s with
  | nil =>
    cases h
    exact ⟨nofun, s'.tree, rfl, nofun, fun _ _ ↦ rfl⟩
  | cons input inputs ih =>
    rw [processAll] at h
    split at h
    · cases h
    · next between hprocess =>
      obtain ⟨m, code, t₁, hyields, hfits, hwrites, rfl⟩ := hrun.process_eq_ok hprocess
      -- the rest runs on what the first write left, and is carried back over it to the start
      have hrest := writesApart_of_writes hrun hyields hfits hwrites
      obtain ⟨hall, t', rfl, hplaced⟩ := ih hrest h
      refine ⟨fun other hother ↦ ?_, t', rfl, hplaced.cons hrun hyields hfits hwrites⟩
      cases hother with
      | head => exact ⟨m, code, hyields, hfits⟩
      | tail _ hother =>
        obtain ⟨m', code', hyields', hfits'⟩ := hall other hother
        have hother' := (yields_iff_of_writes hrun hyields hfits hwrites hother _ _).mp hyields'
        exact ⟨m', code', hother',
          (fits_iff_of_writes hrun hyields hfits hwrites hother hother').mp hfits'⟩

/-- With reliable devices, a run succeeds if the code of each input can be written at the start. -/
theorem WritesApart.exists_processAll (hrun : inv.WritesApart s.tree inputs)
    (h : ∀ input ∈ inputs, ∃ m code, inv.Yields s.tree input m code ∧ inv.Fits s.tree m) :
    ∃ s', inv.processAll .reliable s inputs = (.ok (), s') := by
  induction inputs generalizing s with
  | nil => exact ⟨s, rfl⟩
  | cons input inputs ih =>
    obtain ⟨m, code, hyields, hfits⟩ := h input (.head _)
    obtain ⟨between, hprocess⟩ := hrun.exists_process hyields hfits
    obtain ⟨m', code', t₁, hyields', _, hwrites, rfl⟩ := hrun.process_eq_ok hprocess
    obtain ⟨rfl, rfl⟩ := hyields.unique hyields'
    rw [processAll, hprocess]
    refine ih (writesApart_of_writes hrun hyields hfits hwrites) fun other hother ↦ ?_
    obtain ⟨m', code', hother', hfits'⟩ := h other (.tail _ hother)
    exact ⟨m', code', (yields_iff_of_writes hrun hyields hfits hwrites hother _ _).mpr hother',
      (fits_iff_of_writes hrun hyields hfits hwrites hother hother').mpr hfits'⟩

/-- A run on files that are up to date changes nothing, and each of its writes says so. -/
theorem WritesFiles.processAll_of_same (hfiles : inv.WritesFiles)
    (h : ∀ input ∈ inputs, ∃ m code, inv.Yields s.tree input m code ∧
      Path.NamesFile (inv.codePath m) ∧ s.tree.file? (inv.codePlace m) = some (utf8 code)) :
    inv.processAll .reliable s inputs = (.ok (), s) ∧
      inv.outcomes s inputs = List.replicate inputs.length .unchanged := by
  induction inputs with
  | nil => exact ⟨rfl, rfl⟩
  | cons input inputs ih =>
    obtain ⟨m, code, hyields, hpath, hfile⟩ := h input (.head _)
    obtain ⟨hprocess, houtcome⟩ := hfiles.process_of_same hyields hpath hfile
    obtain ⟨hall, houtcomes⟩ := ih fun other hother ↦ h other (.tail _ hother)
    constructor
    · rw [processAll, hprocess]
      exact hall
    · rw [outcomes, houtcome, hprocess]
      exact congrArg _ houtcomes

/-- Inputs write apart in any order. -/
theorem WritesApart.perm (hrun : inv.WritesApart t inputs) (hperm : inputs'.Perm inputs) :
    inv.WritesApart t inputs' where
  toWritesFiles := hrun.toWritesFiles
  dots_inputs input hinput := hrun.dots_inputs input (hperm.mem_iff.mp hinput)
  names_ne := by
    refine (hperm.pairwise_iff ?_).mpr hrun.names_ne
    intro input input' hne m code m' code' h h'
    exact (hne m' code' m code h' h).symm
  codePlace_ne input hinput input' hinput' :=
    hrun.codePlace_ne input (hperm.mem_iff.mp hinput) input' (hperm.mem_iff.mp hinput')

/-- The inputs are processed alike whatever list they come from. -/
theorem processAll_with_inputs (inv : Invocation) (inputs' : List String) (devices : Devices)
    (s : Session) (inputs : List String) :
    ({ inv with inputs := inputs' } : Invocation).processAll devices s inputs =
      inv.processAll devices s inputs := by
  induction inputs generalizing s with
  | nil => rfl
  | cons input inputs ih =>
    have hprocess : ({ inv with inputs := inputs' } : Invocation).process devices s input =
        inv.process devices s input := rfl
    rw [processAll, processAll, hprocess]
    split
    · rfl
    · exact ih _

/-- A run that succeeds leaves the code of each input where it is placed, and all other files as
they were. With the inputs in any other order it succeeds from the same start and leaves the same
files, and after it the same run succeeds again without changing anything.

All paths start at the working directory, which is the root of the tree, so that paths with and
without a slash before them lead to the same places. -/
theorem run_of_writesApart (hrun : inv.WritesApart t inv.inputs)
    (hok : (inv.run t).1 = .ok ()) :
    ∃ t', inv.run t = (.ok (), ⟨t', []⟩) ∧
      (∀ input ∈ inv.inputs, ∃ m code, inv.Yields t input m code ∧
        t'.read (inv.codePath m) = .ok (utf8 code)) ∧
      (∀ l, (∀ input ∈ inv.inputs, ∀ m code, inv.Yields t input m code →
        l ≠ inv.codePlace m) → t'.file? l = t.file? l) ∧
      (∀ inputs', inputs'.Perm inv.inputs → ∃ t'',
        ({ inv with inputs := inputs' } : Invocation).run t = (.ok (), ⟨t'', []⟩) ∧
          ∀ l, t''.file? l = t'.file? l) ∧
      inv.run t' = (.ok (), ⟨t', []⟩) ∧
      inv.outcomes ⟨t', []⟩ inv.inputs = List.replicate inv.inputs.length .unchanged := by
  have hstart : inv.processAll .reliable ⟨t, []⟩ inv.inputs = (.ok (), (inv.run t).2) :=
    Prod.ext hok rfl
  obtain ⟨hall, t', hs, hplaced⟩ :=
    WritesApart.processAll_eq_ok (s := ⟨t, []⟩) hrun hstart
  have hafter : ∀ input ∈ inv.inputs, ∃ m code, inv.Yields t input m code ∧
      inv.Yields t' input m code ∧ Path.NamesFile (inv.codePath m) ∧
        t'.file? (inv.codePlace m) = some (utf8 code) := by
    intro input hinput
    obtain ⟨m, code, hyields, hfits⟩ := hall input hinput
    exact ⟨m, code, hyields, (hplaced.yields_iff hrun hinput).mpr hyields, hfits.namesFile,
      hplaced.file?_codePlace input hinput m code hyields⟩
  obtain ⟨hagain, houtcomes⟩ := WritesFiles.processAll_of_same (s := ⟨t', []⟩)
    hrun.toWritesFiles fun input hinput ↦
      (hafter input hinput).imp fun m ↦ Exists.imp fun code ↦ And.right
  refine ⟨t', hstart.trans (by rw [hs]), fun input hinput ↦ ?_, hplaced.file?_of_ne,
    fun inputs' hperm ↦ ?_, hagain, houtcomes⟩
  · obtain ⟨m, code, hyields, _, hpath, hfile⟩ := hafter input hinput
    exact ⟨m, code, hyields, (Tree.read_eq_ok_iff
      (hrun.dots_codePath hyields.isNamed)).mpr ⟨hpath, hfile⟩⟩
  · have hrun' : inv.WritesApart t inputs' := hrun.perm hperm
    obtain ⟨s'', hs''⟩ := WritesApart.exists_processAll (s := ⟨t, []⟩) hrun'
      fun input hinput ↦ hall input (hperm.mem_iff.mp hinput)
    obtain ⟨_, t'', rfl, hplaced'⟩ := WritesApart.processAll_eq_ok (s := ⟨t, []⟩) hrun' hs''
    refine ⟨t'', ?_, hplaced.file?_eq hplaced' fun input ↦ hperm.mem_iff⟩
    rw [run, runOn, processAll_with_inputs, hs'']

/-- Two schemas, of which one has the name of a directory that the other one goes to, and a file
below the output directory. -/
def nestedSchemas : Tree := .directory [
  ("b.umsg", .file (utf8 "package a;struct b{bool c;};")),
  ("C.umsg", .file (utf8 "package a.b;struct C{bool c;};")),
  ("out", .directory [("a", .directory [("old.hpp", .file [1])])])]

/-- A run over the two schemas. -/
def nestedRun : Invocation := ⟨["b.umsg", "C.umsg"], "out", .cpp, false, false⟩

/-- The inputs of that run. -/
private theorem mem_nestedRun {input : String} :
    input ∈ nestedRun.inputs ↔ input = "b.umsg" ∨ input = "C.umsg" := by
  simp [nestedRun]

/-- The name and the place that the first schema yields. -/
private theorem names_of_first {m : Message} {code : String}
    (h : nestedRun.Yields nestedSchemas "b.umsg" m code) :
    m.structName = "b" ∧ nestedRun.codePlace m = ["out", "a", "b.hpp"] := by
  have hnames : (Codegen.compileFile nestedSchemas "b.umsg" (nestedRun.options "b.umsg")).map
      (fun r ↦ (r.1.structName, nestedRun.codePlace r.1)) =
        .ok ("b", ["out", "a", "b.hpp"]) := by decide +kernel
  unfold Yields at h
  rw [h] at hnames
  exact Prod.mk.inj (Except.ok.inj hnames)

/-- The name and the place that the second one yields. -/
private theorem names_of_second {m : Message} {code : String}
    (h : nestedRun.Yields nestedSchemas "C.umsg" m code) :
    m.structName = "C" ∧ nestedRun.codePlace m = ["out", "a", "b", "C.hpp"] := by
  have hnames : (Codegen.compileFile nestedSchemas "C.umsg" (nestedRun.options "C.umsg")).map
      (fun r ↦ (r.1.structName, nestedRun.codePlace r.1)) =
        .ok ("C", ["out", "a", "b", "C.hpp"]) := by decide +kernel
  unfold Yields at h
  rw [h] at hnames
  exact Prod.mk.inj (Except.ok.inj hnames)

/-- Where their code is placed. -/
private theorem codePlace_of_nestedSchemas {input : String} (hinput : input ∈ nestedRun.inputs)
    {m : Message} {code : String} (h : nestedRun.Yields nestedSchemas input m code) :
    nestedRun.codePlace m = ["out", "a", "b.hpp"] ∨
      nestedRun.codePlace m = ["out", "a", "b", "C.hpp"] := by
  rcases mem_nestedRun.mp hinput with rfl | rfl
  · exact .inl (names_of_first h).2
  · exact .inr (names_of_second h).2

/-- They write apart. -/
private theorem writesApart_nestedSchemas :
    nestedRun.WritesApart nestedSchemas nestedRun.inputs := by
  refine ⟨⟨rfl, rfl, by decide⟩, by decide, ?_, fun input hinput input' hinput' m code h ↦ ?_⟩
  · refine List.pairwise_pair.mpr fun m code m' code' h h' hsame ↦ ?_
    have hname := (Prod.mk.inj hsame).2
    rw [(names_of_first h).1, (names_of_second h').1] at hname
    exact absurd hname (by decide)
  · rcases codePlace_of_nestedSchemas hinput h with hplace | hplace <;>
      rcases mem_nestedRun.mp hinput' with rfl | rfl <;> rw [hplace] <;> decide

/-- The run leaves the file as it is, and finds nothing to do a second time. -/
theorem run_nestedSchemas :
    nestedRun.WritesApart nestedSchemas nestedRun.inputs ∧
      (nestedRun.run nestedSchemas).1 = .ok () ∧
        ∃ t', nestedRun.run nestedSchemas = (.ok (), ⟨t', []⟩) ∧
          t'.file? ["out", "a", "old.hpp"] = some [1] ∧
          nestedRun.outcomes ⟨t', []⟩ nestedRun.inputs = [.unchanged, .unchanged] := by
  have hok : (nestedRun.run nestedSchemas).1 = .ok () := by decide +kernel
  obtain ⟨t', hrun, _, hsame, _, _, houtcomes⟩ := run_of_writesApart writesApart_nestedSchemas hok
  refine ⟨writesApart_nestedSchemas, hok, t', hrun, ?_, houtcomes⟩
  rw [hsame]
  · decide
  · intro input hinput m code h
    rcases codePlace_of_nestedSchemas hinput h with hplace | hplace <;> rw [hplace] <;> decide

end WireSchema.Invocation
