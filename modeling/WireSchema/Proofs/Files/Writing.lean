import WireSchema.Files.Placement
import WireSchema.Proofs.Files.Disks
import WireSchema.Proofs.Files.Walks

/-!
# Writing along paths

A write adds the directories that are missing on the way to a place, and sets a file there. It only
succeeds if the path can be that of a file and the place is free for one, and does so then on a
reliable disk; no other place has changed after it. The main statements say this of making
directories, of writing a file, and of the write that leaves a file alone if it already has the
bytes. Where they fail, no file has changed, or the disk broke off in the file that was written.
-/

namespace WireSchema

open WireSchema.Path Text

namespace Tree

variable {disk : Disk} {t t' : Tree} {l k : Location} {path text : String} {bytes : List UInt8}

/-- A directory stands at the place afterwards, and only places on the way to it have changed. -/
structure MakesDirectories (t : Tree) (l : Location) (t' : Tree) : Prop where
  directory : t'.kind? l = some .directory
  same : ∀ k, ¬k <+: l → t'.kind? k = t.kind? k

/-- A file with the bytes stands at the place afterwards, and only places on the way to it have
changed. -/
structure Writes (t : Tree) (l : Location) (bytes : List UInt8) (t' : Tree) : Prop where
  file : t'.kind? l = some (.file bytes)
  same : ∀ k, ¬k <+: l → t'.kind? k = t.kind? k

/-! ### What a write leaves behind -/

namespace Writes

/-- Above the file there are directories. -/
theorem directory (h : t.Writes l bytes t') (hk : k <+: l) (hne : k ≠ l) :
    t'.kind? k = some .directory :=
  kind?_eq_directory_above hk hne (by simp [h.file])

/-- The file is found at its place. -/
theorem file?_self (h : t.Writes l bytes t') : t'.file? l = some bytes :=
  file?_eq_some_iff.mpr h.file

/-- Where the place was free, no other file has changed. -/
theorem file?_of_ne (h : t.Writes l bytes t') (hfree : t.Admits l) (hne : k ≠ l) :
    t'.file? k = t.file? k := by
  by_cases hk : k <+: l
  · rw [hfree.no_file k hk hne, file?_eq_none_iff]
    exact .inr (h.directory hk hne)
  · exact file?_eq_of_kind? (h.same k hk)

/-- A place that is neither above the file nor below it is free as before. -/
theorem admits_iff (h : t.Writes l bytes t') (hfree : t.Admits l) (hbelow : ¬l <+: k)
    (habove : ¬k <+: l) : t'.Admits k ↔ t.Admits k := by
  have hkind : t'.kind? k = t.kind? k := h.same k habove
  have hfile (j : Location) (hj : j <+: k) : t'.file? j = t.file? j :=
    h.file?_of_ne hfree fun he ↦ hbelow (he ▸ hj)
  constructor
  · rintro ⟨hnone, hdirectory⟩
    exact ⟨fun j hj hne ↦ by rw [← hfile j hj, hnone j hj hne], by rwa [← hkind]⟩
  · rintro ⟨hnone, hdirectory⟩
    exact ⟨fun j hj hne ↦ by rw [hfile j hj, hnone j hj hne], by rwa [hkind]⟩

end Writes

/-! ### Making directories -/

/-- Nothing is set below a file. -/
private theorem set_of_file (bytes : List UInt8) (l : Location) (new : Tree) :
    (Tree.file bytes).set l new = Tree.file bytes := by
  rcases l with - | ⟨name, - | ⟨next, l⟩⟩ <;> rfl

/-- No directories are made below a file. -/
private theorem makeDirectories_of_file (bytes : List UInt8) (l : Location)
    (steps : List String) : (disk.makeDirectories (.file bytes) l steps).2 = .file bytes := by
  induction steps generalizing l with
  | nil => rfl
  | cons step steps ih =>
    rw [Disk.makeDirectories, set_of_file]
    split
    · exact ih _
    · split
      · rfl
      · split
        · exact ih _
        · rfl
        · split
          · rfl
          · exact ih _

/-- If a directory is there after some were made, the root was one. -/
private theorem kind?_nil_of_makeDirectories {steps : List String}
    {answer : Except FileError Unit} (h : disk.makeDirectories t [] steps = (answer, t'))
    (hkind : t'.kind? l = some .directory) : t.kind? [] = some .directory := by
  cases t with
  | directory entries => rfl
  | file bytes =>
    have hsame : (disk.makeDirectories (.file bytes) [] steps).2 = .file bytes :=
      makeDirectories_of_file bytes [] steps
    rw [h] at hsame
    subst hsame
    cases l <;> cases hkind

/-- If directories could be made down to a place, no file was on the way to it. -/
theorem makeDirectories_eq_ok {steps : List String} (hdots : ".." ∉ steps)
    (hbase : t.kind? l = some .directory) (h : disk.makeDirectories t l steps = (.ok (), t')) :
    (∀ k, k <+: l ++ steps → t.file? k = none) ∧ t.MakesDirectories (l ++ steps) t' := by
  induction steps generalizing t l with
  | nil =>
    rw [Disk.makeDirectories, Prod.mk.injEq] at h
    obtain ⟨-, rfl⟩ := h
    rw [List.append_nil]
    refine ⟨fun k hk ↦ file?_eq_none_iff.mpr (.inr ?_), hbase, fun _ _ ↦ rfl⟩
    by_cases hne : k = l
    · rwa [hne]
    · exact kind?_eq_directory_above hk hne (by simp [hbase])
  | cons step steps ih =>
    obtain ⟨hstep, hdots⟩ := List.ne_and_not_mem_of_not_mem_cons hdots
    rw [Disk.makeDirectories, if_neg hstep.symm] at h
    rw [List.append_cons]
    split at h
    · cases h
    · split at h
      · next entries hget => exact ih hdots (kind?_eq_directory_iff.mpr ⟨entries, hget⟩) h
      · cases h
      · next hget =>
        split at h
        · cases h
        have hnone := kind?_eq_none_iff.mpr hget
        -- the new directory is empty, so that no other place has changed
        have hkind := kind?_set_empty hbase hnone
        obtain ⟨hfree, hmade⟩ := ih hdots (by rw [hkind, if_pos rfl]) h
        refine ⟨fun k hk ↦ ?_, hmade.directory, fun k hk ↦ ?_⟩
        · rw [← file?_set_empty hbase hnone, hfree k hk]
        · rw [hmade.same k hk, hkind, if_neg]
          rintro rfl
          exact hk (List.prefix_append _ _)

/-- On a reliable disk, directories can be made along short steps where no file is on the way. -/
theorem exists_makeDirectories {steps : List String} (hdots : ".." ∉ steps)
    (hshort : ∀ step ∈ steps, isOverlong step = false) (hbase : t.kind? l = some .directory)
    (hfree : ∀ k, k <+: l ++ steps → t.file? k = none) :
    ∃ t', t.makeDirectories l steps = (.ok (), t') := by
  induction steps generalizing t l with
  | nil => exact ⟨t, rfl⟩
  | cons step steps ih =>
    obtain ⟨hstep, hdots⟩ := List.ne_and_not_mem_of_not_mem_cons hdots
    obtain ⟨hlong, hshort⟩ := List.forall_mem_cons.mp hshort
    rw [makeDirectories, Disk.makeDirectories, if_neg hstep.symm, hlong,
      if_neg Bool.false_ne_true]
    rw [List.append_cons] at hfree
    cases hget : t.get? (l ++ [step]) with
    | none =>
      have hnone := kind?_eq_none_iff.mpr hget
      refine ih hdots hshort (by rw [kind?_set_empty hbase hnone, if_pos rfl]) fun k hk ↦ ?_
      rw [file?_set_empty hbase hnone, hfree k hk]
    | some c =>
      cases c with
      | directory entries =>
        exact ih hdots hshort (kind?_eq_directory_iff.mpr ⟨entries, hget⟩) hfree
      | file bytes =>
        have hnone := hfree (l ++ [step]) (List.prefix_append _ _)
        simp [file?, hget] at hnone

/-! ### Writing a file -/

/-- A path whose last part is a name is written there. -/
private theorem write_target {init : List String} {last : String}
    (hparts : parts path = init ++ [last]) (hidle : isIdle last = false)
    (hdots : ".." ∉ parts path) :
    (parts path).reverse.dropWhile String.isEmpty = last :: init.reverse ∧
      last ≠ "." ∧ last ≠ ".." ∧ path.toList.getLast? ≠ some '/' := by
  simp only [isIdle, Bool.or_eq_false_iff, beq_eq_false_iff_ne] at hidle
  obtain ⟨hempty, hdot⟩ := hidle
  refine ⟨?_, hdot, ?_, fun hslash ↦ ?_⟩
  · rw [hparts, List.reverse_concat, List.dropWhile_cons, hempty, if_neg Bool.false_ne_true]
  · rintro rfl
    simp [hparts] at hdots
  · obtain ⟨_, _, hend⟩ := exists_parts_of_slash hslash
    have hlast := (List.append_inj' (hparts.symm.trans hend) rfl).2
    rw [List.singleton_inj.mp hlast] at hempty
    cases hempty

/-- Only at a path that can be that of a file is one opened. -/
private theorem exists_last_of_placeToWrite (h : t.placeToWrite path = .ok l) :
    FileError.ofPath? path = none ∧
      ∃ init last, parts path = init ++ [last] ∧ isIdle last = false := by
  unfold placeToWrite at h
  cases hpath : FileError.ofPath? path with
  | some e => simp [hpath] at h
  | none =>
    refine ⟨rfl, ?_⟩
    simp only [hpath] at h
    obtain ⟨init, last, hparts⟩ := exists_parts_concat path
    have hempty : path ≠ "" := by
      rintro rfl
      cases hpath
    split at h
    · cases h
    · next found before hbefore =>
      split at h
      · cases h
      · split at h
        · cases h
        · next hname =>
          simp only [Bool.or_eq_true, decide_eq_true_eq, not_or] at hname
          obtain ⟨⟨hdot, _⟩, hslash⟩ := hname
          have hlast := last_ne_empty hempty hslash hparts
          have hisEmpty : last.isEmpty = false := by simpa using hlast
          rw [hparts, List.reverse_concat, List.dropWhile_cons, hisEmpty,
            if_neg Bool.false_ne_true, List.cons.injEq] at hbefore
          obtain ⟨rfl, _⟩ := hbefore
          exact ⟨init, last, hparts, by simp [isIdle, hlast, hdot]⟩

/-- A walk to a directory leads to the place that its parts name, through short parts. -/
private theorem walk_to_directory_eq_ok_iff {init : List String} (hdots : ".." ∉ init) :
    t.walk [] (init ++ ["."]) = .ok k ↔
      t.kind? (names init) = some .directory ∧ (∀ part ∈ init, isOverlong part = false) ∧
        k = names init := by
  have hidle : isIdle "." = true := rfl
  have hshort : isOverlong "." = false := isOverlong_of_isIdle hidle
  have hdots' : ".." ∉ init ++ ["."] := by simpa using hdots
  rw [walk_concat_eq_ok_iff hdots', names_concat_of_isIdle init hidle, List.forall_mem_append,
    List.forall_mem_singleton]
  simp [hshort]

/-- At a path whose last part is a name, a file is opened exactly if the parts are short, the
directory is there, and the place is no directory. -/
private theorem placeToWrite_of_last_eq_ok_iff {init : List String} {last : String}
    (hpath : FileError.ofPath? path = none) (hparts : parts path = init ++ [last])
    (hidle : isIdle last = false) (hdots : ".." ∉ parts path) :
    t.placeToWrite path = .ok l ↔
      (∀ part ∈ parts path, isOverlong part = false) ∧
        t.kind? (names init) = some .directory ∧
        t.kind? (names init ++ [last]) ≠ some .directory ∧ l = names init ++ [last] := by
  obtain ⟨hbefore, hdot, hdotDot, hslash⟩ := write_target hparts hidle hdots
  simp only [placeToWrite, hpath, hbefore, List.reverse_reverse, hdot, hdotDot, hslash,
    decide_false, Bool.or_self, Bool.false_eq_true, if_false]
  rw [hparts, List.forall_mem_append, List.forall_mem_singleton]
  rw [hparts, List.mem_append, not_or] at hdots
  constructor
  · intro h
    split at h
    · cases h
    · next place hplace =>
      obtain ⟨hdirectory, hshort, rfl⟩ := (walk_to_directory_eq_ok_iff hdots.1).mp hplace
      split at h
      · cases h
      · next hlong =>
        split at h
        · cases h
        · next hget =>
          exact ⟨⟨hshort, by simpa using hlong⟩, hdirectory, kind?_ne_directory hget,
            (Except.ok.inj h).symm⟩
  · rintro ⟨⟨hshort, hlong⟩, hdirectory, hplace, rfl⟩
    rw [(walk_to_directory_eq_ok_iff hdots.1).mpr ⟨hdirectory, hshort, rfl⟩]
    simp only [hlong, Bool.false_eq_true, if_false]
    split
    · next entries hget => exact absurd (kind?_eq_directory_iff.mpr ⟨entries, hget⟩) hplace
    · rfl

/-- A file is opened exactly if the path can be that of a file, its directory is there, and the
place is no directory. -/
theorem placeToWrite_eq_ok_iff (hdots : ".." ∉ parts path) :
    t.placeToWrite path = .ok l ↔
      NamesFile path ∧ t.kind? (steps path).dropLast = some .directory ∧
        t.kind? (steps path) ≠ some .directory ∧ l = steps path := by
  constructor
  · intro h
    obtain ⟨hpath, init, last, hparts, hidle⟩ := exists_last_of_placeToWrite h
    obtain ⟨hshort, hrest⟩ := (placeToWrite_of_last_eq_ok_iff hpath hparts hidle hdots).mp h
    rw [steps_eq_names, hparts, names_concat init hidle, List.dropLast_concat]
    exact ⟨⟨hpath, hshort, init, last, hparts, hidle⟩, hrest⟩
  · rintro ⟨⟨hpath, hshort, init, last, hparts, hidle⟩, hrest⟩
    rw [steps_eq_names, hparts, names_concat init hidle, List.dropLast_concat] at hrest
    exact (placeToWrite_of_last_eq_ok_iff hpath hparts hidle hdots).mpr ⟨hshort, hrest⟩

/-- A file that is written was opened, and holds the bytes. -/
theorem write_eq_ok (h : disk.write t path bytes = (.ok (), t')) :
    ∃ l, t.placeToWrite path = .ok l ∧ t' = t.set l (file bytes) := by
  unfold Disk.write at h
  split at h
  · cases h
  · next l hl => exact ⟨l, hl, Disk.fill_eq_ok h⟩

/-- The steps before the last one are parts of the path. -/
private theorem mem_parts_of_mem_dropLast {part : String} (h : part ∈ (steps path).dropLast) :
    part ∈ parts path :=
  (List.mem_filter.mp (List.dropLast_subset _ h)).1

/-- A place is not above the one that it is in. -/
private theorem not_prefix_of_concat (before : Location) (last : String) :
    ¬before ++ [last] <+: before := by
  intro hp
  have hlength := hp.length_le
  rw [List.length_append, List.length_singleton] at hlength
  omega

/-- Bytes are only placed where the place was free for a file. -/
theorem place_eq_ok (hdots : ".." ∉ parts path) (h : disk.place t path bytes = (.ok (), t')) :
    NamesFile path ∧ t.Admits (steps path) ∧ t.Writes (steps path) bytes t' := by
  unfold Disk.place at h
  split at h
  · cases h
  · next between hmake =>
    obtain ⟨_, hl, rfl⟩ := write_eq_ok h
    obtain ⟨hpath, hdirectory, hplace, rfl⟩ := (placeToWrite_eq_ok_iff hdots).mp hl
    obtain ⟨before, last, hsteps⟩ := hpath.exists_steps
    have hroot : t.kind? [] = some .directory := kind?_nil_of_makeDirectories hmake hdirectory
    obtain ⟨hfree, hmade⟩ :=
      makeDirectories_eq_ok (fun hm ↦ hdots (mem_parts_of_mem_dropLast hm)) hroot hmake
    rw [List.nil_append] at hfree hmade
    rw [hsteps, List.dropLast_concat] at hdirectory hfree hmade
    rw [hsteps] at hplace ⊢
    have hkind := kind?_set_file bytes hdirectory hplace
    refine ⟨hpath, ⟨fun k hk hne ↦ ?_, ?_⟩, by rw [hkind, if_pos rfl], fun k hk ↦ ?_⟩
    · exact hfree k ((List.prefix_concat_iff.mp hk).resolve_left hne)
    · rwa [← hmade.same _ (not_prefix_of_concat before last)]
    · rw [hkind, if_neg]
      · exact hmade.same k fun hp ↦ hk (hp.trans (List.prefix_append _ _))
      · rintro rfl
        exact hk (List.prefix_refl _)

/-- On a reliable disk they are placed if it is free. -/
theorem exists_place (hdots : ".." ∉ parts path) (hpath : NamesFile path)
    (hfree : t.Admits (steps path)) (bytes : List UInt8) :
    ∃ t', t.place path bytes = (.ok (), t') := by
  obtain ⟨before, last, hsteps⟩ := hpath.exists_steps
  have hbefore : (steps path).dropLast = before := by rw [hsteps, List.dropLast_concat]
  have hdots' : ".." ∉ before := fun hm ↦ hdots (mem_parts_of_mem_dropLast (hbefore ▸ hm))
  have hshort : ∀ step ∈ before, isOverlong step = false := fun step hm ↦
    hpath.isOverlong_eq_false step (mem_parts_of_mem_dropLast (hbefore ▸ hm))
  have hroot : t.kind? [] = some .directory := hfree.kind?_nil (by simp [hsteps])
  have hnone : ∀ k, k <+: before → t.file? k = none := by
    intro k hk
    refine hfree.no_file k (hsteps ▸ hk.trans (List.prefix_append _ _)) ?_
    rintro rfl
    exact not_prefix_of_concat before last (hsteps ▸ hk)
  obtain ⟨between, hmake⟩ := exists_makeDirectories hdots' hshort hroot hnone
  obtain ⟨_, hmade⟩ := makeDirectories_eq_ok hdots' hroot hmake
  rw [List.nil_append] at hmade
  have hplace : between.kind? (steps path) ≠ some .directory := by
    rw [hmade.same _ (hsteps ▸ not_prefix_of_concat before last)]
    exact hfree.no_directory
  have hopen : between.placeToWrite path = .ok (steps path) :=
    (placeToWrite_eq_ok_iff hdots).mpr ⟨hpath, hbefore ▸ hmade.directory, hplace, rfl⟩
  refine ⟨between.set (steps path) (file bytes), ?_⟩
  rw [makeDirectories] at hmake
  rw [place, Disk.place, hbefore, hmake]
  simp only [Disk.write, hopen, Disk.fill_reliable]

/-- A file that has the bytes already is left alone. -/
theorem writeIfChanged_of_same (disk : Disk) (hdots : ".." ∉ parts path) (hpath : NamesFile path)
    (h : t.file? (steps path) = some (utf8 text)) :
    disk.writeIfChanged t path text = (.ok .unchanged, t) := by
  simp only [Disk.writeIfChanged, (read_eq_ok_iff hdots).mpr ⟨hpath, h⟩, if_true]

/-- A file stands where its place is free. -/
theorem admits_of_file? (h : t.file? l = some bytes) : t.Admits l := by
  rw [file?_eq_some_iff] at h
  refine ⟨fun k hk hne ↦ ?_, by simp [h]⟩
  exact file?_eq_none_iff.mpr (.inr (kind?_eq_directory_above hk hne (by simp [h])))

/-- An outcome is only told of bytes that were placed. -/
private theorem place_of_map_eq_ok {result outcome : WriteOutcome}
    (h : ((disk.place t path bytes).1.map fun _ ↦ result, (disk.place t path bytes).2) =
      (.ok outcome, t')) : disk.place t path bytes = (.ok (), t') := by
  obtain ⟨hresult, htree⟩ := Prod.mk.inj h
  cases hplace : (disk.place t path bytes).1 with
  | error e =>
    rw [hplace] at hresult
    cases hresult
  | ok _ => exact Prod.ext hplace htree

/-- A file is only made to hold a text where the place was free for one. -/
theorem writeIfChanged_eq_ok {outcome : WriteOutcome} (hdots : ".." ∉ parts path)
    (h : disk.writeIfChanged t path text = (.ok outcome, t')) :
    NamesFile path ∧ t.Admits (steps path) ∧ t.Writes (steps path) (utf8 text) t' := by
  unfold Disk.writeIfChanged at h
  split at h
  · exact place_eq_ok hdots (place_of_map_eq_ok h)
  · cases h
  · next old hread =>
    obtain ⟨hpath, hfile⟩ := (read_eq_ok_iff hdots).mp hread
    split at h
    · next hsame =>
      obtain ⟨-, rfl⟩ := Prod.mk.inj h
      subst hsame
      exact ⟨hpath, admits_of_file? hfile, file?_eq_some_iff.mp hfile, fun _ _ ↦ rfl⟩
    · exact place_eq_ok hdots (place_of_map_eq_ok h)

/-- On a reliable disk a file is made to hold a text if the place is free. -/
theorem exists_writeIfChanged (hdots : ".." ∉ parts path) (hpath : NamesFile path)
    (hfree : t.Admits (steps path)) (text : String) :
    ∃ outcome t', t.writeIfChanged path text = (.ok outcome, t') := by
  obtain ⟨between, hplace⟩ := exists_place hdots hpath hfree (utf8 text)
  rw [place] at hplace
  unfold writeIfChanged Disk.writeIfChanged
  rcases read_cases_of_admits hdots hpath hfree with ⟨old, hread⟩ | hread
  · rw [hread]
    by_cases hsame : old = utf8 text
    · exact ⟨.unchanged, t, if_pos hsame⟩
    · refine ⟨.updated, between, ?_⟩
      simp only [hsame, if_false, hplace]
      rfl
  · refine ⟨.created, between, ?_⟩
    simp only [hread, hplace]
    rfl

end Tree

end WireSchema
