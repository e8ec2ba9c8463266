import Mathlib.Data.List.Induction
import WireSchema.Proofs.Files.Kinds
import WireSchema.Proofs.Files.Segments

/-!
# Reading along paths

A path without the part `..` leads to the place that its steps name, if it leads anywhere: the walk
goes down only, and fails at the first place on the way that is no directory. The main statements
say when a file is read, and when it is only missing, so that it could be made.
-/

namespace WireSchema

namespace Path

/-- The path can be that of a file: the system takes it and all of its parts, and the last one is a
name. -/
structure NamesFile (path : String) : Prop where
  ofPath?_eq_none : FileError.ofPath? path = none
  isOverlong_eq_false : ∀ part ∈ parts path, isOverlong part = false
  exists_last : ∃ init last, parts path = init ++ [last] ∧ isIdle last = false

/-- The parts of a row that lead somewhere. -/
def names (parts : List String) : List String := parts.filter fun part ↦ !isIdle part

/-- The steps of a path are the names among its parts. -/
theorem steps_eq_names (path : String) : steps path = names (parts path) := rfl

/-- Names are counted row by row. -/
theorem names_append (ps qs : List String) : names (ps ++ qs) = names ps ++ names qs :=
  List.filter_append ..

/-- A row with an idle part at its end leads no further. -/
theorem names_concat_of_isIdle (ps : List String) {part : String} (h : isIdle part = true) :
    names (ps ++ [part]) = names ps := by
  simp [names, h]

/-- Any other part leads one step further. -/
theorem names_concat (ps : List String) {part : String} (h : isIdle part = false) :
    names (ps ++ [part]) = names ps ++ [part] := by
  simp [names, h]

/-- The path of a file leads somewhere. -/
theorem NamesFile.exists_steps {path : String} (h : NamesFile path) :
    ∃ before last, steps path = before ++ [last] := by
  obtain ⟨init, last, hparts, hidle⟩ := h.exists_last
  exact ⟨names init, last, by rw [steps_eq_names, hparts, names_concat init hidle]⟩

/-- An idle part is short. -/
theorem isOverlong_of_isIdle {part : String} (h : isIdle part = true) :
    isOverlong part = false := by
  simp only [isIdle, Bool.or_eq_true, String.isEmpty_iff, beq_iff_eq] at h
  rcases h with rfl | rfl <;> decide

/-- A path has a last part. -/
theorem exists_parts_concat (path : String) : ∃ init last, parts path = init ++ [last] := by
  have hne : parts path ≠ [] := by simp [parts]
  exact ⟨_, _, (List.dropLast_concat_getLast hne).symm⟩

end Path

open WireSchema.Path

namespace Tree

variable {t : Tree} {l k : Location}

/-! ### One part -/

/-- From a directory a part that does not lead up leads to the place that it names, unless it is too
long. -/
theorem enter_eq_ok_iff {part : String} (hpart : part ≠ "..") :
    t.enter l part = .ok k ↔
      t.kind? l = some .directory ∧ isOverlong part = false ∧ k = l ++ names [part] := by
  unfold enter kind?
  cases t.get? l with
  | none => simp
  | some c =>
    cases c with
    | file bytes => simp [kind]
    | directory entries =>
      simp only [Option.map_some, kind, true_and, hpart, if_false]
      by_cases hidle : isIdle part = true
      · simp [hidle, isOverlong_of_isIdle hidle, names, eq_comm]
      · by_cases hlong : isOverlong part = true
        · simp [hidle, hlong]
        · simp [hidle, hlong, names, eq_comm]

/-- If a short part leads nowhere although it does not lead up, the place is missing or a file. -/
theorem enter_eq_error {part : String} (hpart : part ≠ "..") (hlong : isOverlong part = false)
    {e : FileError} (h : t.enter l part = .error e) : e = .notFound ∨ t.file? l ≠ none := by
  unfold enter at h
  unfold file?
  cases hc : t.get? l with
  | none =>
    rw [hc] at h
    exact .inl (Except.error.inj h).symm
  | some c =>
    cases c with
    | file bytes => exact .inr (by simp)
    | directory entries =>
      simp only [hc, hpart, hlong, if_false, Bool.false_eq_true] at h
      split at h <;> cases h

/-! ### Walks -/

/-- A walk goes on from the place that its first parts lead to. -/
theorem walk_append (t : Tree) (l : Location) (ps qs : List String) :
    t.walk l (ps ++ qs) =
      match t.walk l ps with
      | .error e => .error e
      | .ok next => t.walk next qs := by
  induction ps generalizing l with
  | nil => rfl
  | cons p ps ih =>
    simp only [List.cons_append, walk]
    cases t.enter l p with
    | error e => rfl
    | ok next => exact ih next

/-- A walk leads to the place that its parts name exactly if all of these are short and the place
before the last part is a directory. -/
theorem walk_concat_eq_ok_iff {init : List String} {last : String}
    (hdots : ".." ∉ init ++ [last]) :
    t.walk l (init ++ [last]) = .ok k ↔
      t.kind? (l ++ names init) = some .directory ∧
        (∀ part ∈ init ++ [last], isOverlong part = false) ∧
          k = l ++ names (init ++ [last]) := by
  -- from the end, because the last part decides which place has to be a directory
  induction init using List.reverseRecOn generalizing last k with
  | nil =>
    have hlast : last ≠ ".." := by simpa [eq_comm] using hdots
    simp only [List.nil_append, walk, names, List.filter_nil, List.append_nil,
      List.forall_mem_singleton]
    rw [← names, ← enter_eq_ok_iff hlast]
    cases t.enter l last <;> simp
  | append_singleton init before ih =>
    rw [List.mem_append, not_or] at hdots
    obtain ⟨hinit, hlast⟩ := hdots
    have hlast' : last ≠ ".." := by simpa [eq_comm] using hlast
    have hstep : t.walk l (init ++ [before] ++ [last]) = .ok k ↔
        ∃ next, t.walk l (init ++ [before]) = .ok next ∧ t.enter next last = .ok k := by
      rw [walk_append]
      cases t.walk l (init ++ [before]) with
      | error e => simp
      | ok next =>
        simp only [walk, Except.ok.injEq, exists_eq_left']
        cases t.enter next last <;> simp
    rw [hstep, names_append _ [last], ← List.append_assoc, List.forall_mem_append,
      List.forall_mem_singleton]
    constructor
    · rintro ⟨next, hwalk, henter⟩
      obtain ⟨_, hshort, rfl⟩ := (ih hinit).mp hwalk
      obtain ⟨hdirectory, hlong, rfl⟩ := (enter_eq_ok_iff hlast').mp henter
      exact ⟨hdirectory, ⟨hshort, hlong⟩, rfl⟩
    · rintro ⟨hdirectory, ⟨hshort, hlong⟩, rfl⟩
      refine ⟨_, (ih hinit).mpr ⟨?_, hshort, rfl⟩,
        (enter_eq_ok_iff hlast').mpr ⟨hdirectory, hlong, rfl⟩⟩
      by_cases hnext : l ++ names init = l ++ names (init ++ [before])
      · rwa [hnext]
      · refine kind?_eq_directory_above ?_ hnext (by simp [hdirectory])
        rw [names_append, ← List.append_assoc]
        exact List.prefix_append _ _

/-- A walk along short parts that meets no file only fails where something is missing. -/
theorem eq_notFound_of_walk {parts : List String} (hdots : ".." ∉ parts)
    (hshort : ∀ part ∈ parts, isOverlong part = false)
    (hfree : ∀ init, init <+: parts → init ≠ parts → t.file? (l ++ names init) = none)
    {e : FileError} (h : t.walk l parts = .error e) : e = .notFound := by
  induction parts generalizing l with
  | nil => cases h
  | cons part parts ih =>
    obtain ⟨hpart, hdots⟩ := List.ne_and_not_mem_of_not_mem_cons hdots
    obtain ⟨hlong, hshort⟩ := List.forall_mem_cons.mp hshort
    have hhere : t.file? l = none := by simpa [names] using hfree [] List.nil_prefix (by simp)
    rw [walk] at h
    cases henter : t.enter l part with
    | error e' =>
      rw [henter] at h
      cases h
      exact (enter_eq_error hpart.symm hlong henter).resolve_right fun hne ↦ hne hhere
    | ok next =>
      rw [henter] at h
      obtain ⟨_, _, rfl⟩ := (enter_eq_ok_iff hpart.symm).mp henter
      refine ih hdots hshort (fun init hinit hne ↦ ?_) h
      have hcons := hfree (part :: init) (List.cons_prefix_cons.mpr ⟨rfl, hinit⟩)
        (fun he ↦ hne (List.cons.inj he).2)
      rwa [← List.singleton_append, names_append, ← List.append_assoc] at hcons

/-! ### Reading -/

/-- A path without the part `..` is read exactly if it can be that of a file and its steps lead to
one. -/
theorem read_eq_ok_iff {path : String} {bytes : List UInt8} (hdots : ".." ∉ parts path) :
    t.read path = .ok bytes ↔ NamesFile path ∧ t.file? (steps path) = some bytes := by
  obtain ⟨init, last, hparts⟩ := exists_parts_concat path
  rw [hparts] at hdots
  rw [file?_eq_some_iff, steps_eq_names, hparts]
  constructor
  · intro h
    unfold read at h
    cases hpath : FileError.ofPath? path with
    | some e => simp [hpath] at h
    | none =>
      cases hwalk : t.walk [] (parts path) with
      | error e => simp [hpath, hwalk] at h
      | ok place =>
        simp only [hpath, hwalk] at h
        rw [hparts] at hwalk
        obtain ⟨hdirectory, hshort, rfl⟩ := (walk_concat_eq_ok_iff hdots).mp hwalk
        rw [List.nil_append] at h hdirectory
        have hfile : t.kind? (names (init ++ [last])) = some (.file bytes) := by
          unfold kind?
          split at h
          · cases h
          · cases h
          · next hget =>
            cases h
            rw [hget]
            rfl
        refine ⟨⟨hpath, hparts ▸ hshort, init, last, hparts, ?_⟩, hfile⟩
        cases hidle : isIdle last with
        | false => rfl
        | true =>
          -- behind an idle part stands the directory that it was looked up in
          rw [names_concat_of_isIdle init hidle, hdirectory] at hfile
          cases hfile
  · rintro ⟨⟨hpath, hshort, init', last', hparts', hidle⟩, hfile⟩
    obtain ⟨rfl, rfl⟩ : init' = init ∧ last' = last := by
      simpa using hparts'.symm.trans hparts
    rw [hparts] at hshort
    have hthere : t.kind? (names (init' ++ [last'])) ≠ none := by simp [hfile]
    have hdirectory : t.kind? (names init') = some .directory := by
      refine kind?_eq_directory_above ?_ ?_ hthere
      · rw [names_concat init' hidle]
        exact List.prefix_append _ _
      · rw [names_concat init' hidle]
        simp
    have hwalk : t.walk [] (init' ++ [last']) = .ok (names (init' ++ [last'])) :=
      (walk_concat_eq_ok_iff hdots).mpr ⟨hdirectory, hshort, rfl⟩
    obtain ⟨c, hget, hkind⟩ := Option.map_eq_some_iff.mp hfile
    cases c with
    | directory entries => cases hkind
    | file bytes' =>
      cases hkind
      simp only [read, hpath, hparts, hwalk, hget]

/-- The place is free for a file: no file is on the way to it, and it is no directory. -/
structure Admits (t : Tree) (l : Location) : Prop where
  no_file : ∀ k, k <+: l → k ≠ l → t.file? k = none
  no_directory : t.kind? l ≠ some .directory

/-- If a place below it is free, the root is a directory. -/
theorem Admits.kind?_nil (h : t.Admits l) (hne : l ≠ []) : t.kind? [] = some .directory := by
  have hnone := h.no_file [] List.nil_prefix hne.symm
  exact (file?_eq_none_iff.mp hnone).resolve_left (by simp [kind?, get?])

/-- Where a place is free, a path that can be that of a file is read, or the file is missing. -/
theorem read_cases_of_admits {path : String} (hdots : ".." ∉ parts path) (hpath : NamesFile path)
    (hplace : t.Admits (steps path)) :
    (∃ bytes, t.read path = .ok bytes) ∨ t.read path = .error .notFound := by
  obtain ⟨hnone, hshort, init, last, hparts, hidle⟩ := hpath
  have hsteps : steps path = names init ++ [last] := by
    rw [steps_eq_names, hparts, names_concat init hidle]
  have hfree : ∀ ps, ps <+: parts path → ps ≠ parts path →
      t.file? ([] ++ names ps) = none := by
    intro ps hps hne
    rw [hparts] at hps hne
    obtain ⟨rest, rfl⟩ := (List.prefix_concat_iff.mp hps).resolve_left hne
    have hbelow : names ps <+: names (ps ++ rest) := by
      rw [names_append]
      exact List.prefix_append _ _
    refine hplace.no_file _ ?_ fun he ↦ ?_
    · rw [hsteps]
      exact hbelow.trans (List.prefix_append _ _)
    · rw [List.nil_append, hsteps] at he
      have hlength := hbelow.length_le
      rw [he, List.length_append, List.length_singleton] at hlength
      omega
  unfold read
  simp only [hnone]
  cases hwalk : t.walk [] (parts path) with
  | error e =>
    rw [eq_notFound_of_walk hdots hshort hfree hwalk]
    exact .inr rfl
  | ok place =>
    rw [hparts] at hdots hwalk
    obtain ⟨_, _, rfl⟩ := (walk_concat_eq_ok_iff hdots).mp hwalk
    rw [List.nil_append, ← hparts, ← steps_eq_names]
    simp only
    cases hget : t.get? (steps path) with
    | none => exact .inr rfl
    | some c =>
      cases c with
      | file bytes => exact .inl ⟨bytes, rfl⟩
      | directory entries =>
        exact absurd (kind?_eq_directory_iff.mpr ⟨entries, hget⟩) hplace.no_directory

end Tree

end WireSchema
