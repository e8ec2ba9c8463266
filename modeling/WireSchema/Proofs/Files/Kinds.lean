import WireSchema.Files.Tree

/-!
# What stands where

The kind of a place is what stands there without what is below it: a file with its bytes, or a
directory. A tree is looked at place by place this way, so that a change of it is a change of the
kinds of some places. The main statements say what setting a tree at a place changes.
-/

namespace WireSchema.Tree

/-- What stands at a place, without what is below it. -/
inductive Kind
  | file (bytes : List UInt8)
  | directory
  deriving DecidableEq, Repr

/-- The kind of the root of a tree. -/
def kind : Tree → Kind
  | file bytes => .file bytes
  | directory _ => .directory

/-- The kind of the place at a location. -/
def kind? (t : Tree) (l : Location) : Option Kind := (t.get? l).map kind

variable {t : Tree} {l k : Location} {bytes : List UInt8}

/-- A file is found exactly at a place of its kind. -/
theorem file?_eq_some_iff : t.file? l = some bytes ↔ t.kind? l = some (.file bytes) := by
  unfold file? kind?
  cases t.get? l with
  | none => simp
  | some c => cases c <;> simp [kind]

/-- No file is found exactly at the other places. -/
theorem file?_eq_none_iff : t.file? l = none ↔ t.kind? l = none ∨ t.kind? l = some .directory := by
  unfold file? kind?
  cases t.get? l with
  | none => simp
  | some c => cases c <;> simp [kind]

/-- Places of the same kind have the same file. -/
theorem file?_eq_of_kind? {t' : Tree} (h : t'.kind? k = t.kind? l) : t'.file? k = t.file? l := by
  cases hf : t.file? l with
  | none =>
    rw [file?_eq_none_iff] at hf ⊢
    rwa [h]
  | some bytes =>
    rw [file?_eq_some_iff] at hf ⊢
    rwa [h]

/-- The kind of a place tells what is found there. -/
theorem kind?_eq_none_iff : t.kind? l = none ↔ t.get? l = none := Option.map_eq_none_iff

/-- A directory is found exactly at a place of its kind. -/
theorem kind?_eq_directory_iff :
    t.kind? l = some .directory ↔ ∃ entries, t.get? l = some (directory entries) := by
  unfold kind?
  cases t.get? l with
  | none => simp
  | some c => cases c <;> simp [kind]

/-- There is no directory if none is found. -/
theorem kind?_ne_directory (h : ∀ entries, t.get? l ≠ some (directory entries)) :
    t.kind? l ≠ some .directory := by
  intro hkind
  obtain ⟨entries, hentries⟩ := kind?_eq_directory_iff.mp hkind
  exact h entries hentries

/-! ### What is below what -/

/-- What is below a place stands there. -/
theorem kind?_append {c : Tree} (h : t.get? l = some c) (k : Location) :
    t.kind? (l ++ k) = c.kind? k := by
  rw [kind?, get?_append, h]
  rfl

/-- Something is only below a directory. -/
theorem kind?_of_append_ne_none (hk : k ≠ []) (h : t.kind? (l ++ k) ≠ none) :
    t.kind? l = some .directory := by
  cases hc : t.get? l with
  | none =>
    refine absurd ?_ h
    rw [kind?_eq_none_iff, get?_append, hc]
    rfl
  | some c =>
    cases c with
    | directory entries => exact kind?_eq_directory_iff.mpr ⟨entries, hc⟩
    | file bytes =>
      refine absurd ?_ h
      obtain ⟨name, rest, rfl⟩ := List.exists_cons_of_ne_nil hk
      rw [kind?_append hc]
      rfl

/-- Every place above one where something stands is a directory. -/
theorem kind?_eq_directory_above (hbelow : k <+: l) (hne : k ≠ l) (h : t.kind? l ≠ none) :
    t.kind? k = some .directory := by
  obtain ⟨rest, rfl⟩ := hbelow
  exact kind?_of_append_ne_none (fun he ↦ hne (by simp [he])) h

/-- Nothing is below a place that is no directory. -/
theorem kind?_eq_none_below (hbelow : l <+: k) (hne : l ≠ k)
    (h : t.kind? l ≠ some .directory) : t.kind? k = none :=
  Decidable.byContradiction fun hk ↦ h (kind?_eq_directory_above hbelow hne hk)

/-! ### Setting a tree -/

/-- The kind of a directory stays when something is set in it. -/
private theorem kind_setChild (t : Tree) (name : String) (c : Tree) :
    (t.setChild name c).kind = t.kind := by
  cases t <;> rfl

/-- The kind of a tree stays when something is set below it. -/
private theorem kind_set (t new : Tree) (name : String) (l : Location) :
    (t.set (name :: l) new).kind = t.kind := by
  unfold set
  cases l with
  | nil => exact kind_setChild t name new
  | cons next l =>
    simp only [modifyParent]
    split
    · rfl
    · exact kind_setChild t name _

/-- What is set at a place changes no place that is not below it. -/
theorem kind?_set_of_not_below (new : Tree) (h : ¬l <+: k) :
    (t.set l new).kind? k = t.kind? k := by
  induction l generalizing t k with
  | nil => exact absurd List.nil_prefix h
  | cons name l ih =>
    cases k with
    | nil =>
      simp only [kind?, get?, Option.map_some, kind_set]
    | cons first k =>
      by_cases hname : first = name
      · subst hname
        have hrest : ¬l <+: k := fun hp ↦ h (List.cons_prefix_cons.mpr ⟨rfl, hp⟩)
        cases l with
        | nil => exact absurd List.nil_prefix hrest
        | cons next l =>
          cases hc : t.child? first with
          | none => simp only [set, modifyParent, hc]
          | some c =>
            obtain ⟨entries, rfl⟩ := exists_directory_of_child? hc
            have hi := ih (t := c) hrest
            simp only [set] at hi
            simp only [set, modifyParent, hc, kind?, get?, child?_setChild_self]
            exact hi
      · have hchild (c : Tree) : (t.setChild name c).child? first = t.child? first :=
          child?_setChild_of_ne t c hname
        have hset : (t.set (name :: l) new).child? first = t.child? first := by
          unfold set
          cases l with
          | nil => exact hchild new
          | cons next l =>
            simp only [modifyParent]
            split
            · rfl
            · exact hchild _
        simp only [kind?, get?, hset]

/-- What is set in a directory is at its place. -/
theorem kind?_set_append {name : String} (new : Tree) (h : t.kind? l = some .directory)
    (k : Location) : (t.set (l ++ [name]) new).kind? (l ++ [name] ++ k) = new.kind? k := by
  obtain ⟨entries, hget⟩ := kind?_eq_directory_iff.mp h
  exact kind?_append (get?_set_self new hget) k

/-- A tree that is set in the place of no directory, with nothing below it, changes that place
only. -/
theorem kind?_set_of_leaf {name : String} {new : Tree} (h : t.kind? l = some .directory)
    (hplace : t.kind? (l ++ [name]) ≠ some .directory)
    (hleaf : ∀ first rest, new.kind? (first :: rest) = none) (k : Location) :
    (t.set (l ++ [name]) new).kind? k = if k = l ++ [name] then some new.kind else t.kind? k := by
  by_cases hbelow : l ++ [name] <+: k
  · obtain ⟨rest, rfl⟩ := hbelow
    rw [kind?_set_append new h]
    cases rest with
    | nil => simp [kind?, get?]
    | cons first rest =>
      rw [hleaf, if_neg (by simp)]
      exact (kind?_eq_none_below (List.prefix_append _ _) (by simp) hplace).symm
  · rw [kind?_set_of_not_below new hbelow, if_neg]
    rintro rfl
    exact hbelow (List.prefix_refl _)

/-- A file is set in the place of no directory. -/
theorem kind?_set_file {name : String} (bytes : List UInt8) (h : t.kind? l = some .directory)
    (hplace : t.kind? (l ++ [name]) ≠ some .directory) (k : Location) :
    (t.set (l ++ [name]) (file bytes)).kind? k =
      if k = l ++ [name] then some (.file bytes) else t.kind? k :=
  kind?_set_of_leaf h hplace (fun _ _ ↦ rfl) k

/-- An empty directory is set where nothing stands. -/
theorem kind?_set_empty {name : String} (h : t.kind? l = some .directory)
    (hplace : t.kind? (l ++ [name]) = none) (k : Location) :
    (t.set (l ++ [name]) empty).kind? k =
      if k = l ++ [name] then some .directory else t.kind? k :=
  kind?_set_of_leaf h (by simp [hplace]) (fun _ _ ↦ rfl) k

/-- It changes no file. -/
theorem file?_set_empty {name : String} (h : t.kind? l = some .directory)
    (hplace : t.kind? (l ++ [name]) = none) (k : Location) :
    (t.set (l ++ [name]) empty).file? k = t.file? k := by
  have hkind := kind?_set_empty h hplace
  by_cases hk : k = l ++ [name]
  · subst hk
    rw [file?_eq_none_iff.mpr (.inl hplace), file?_eq_none_iff]
    exact .inr (by rw [hkind, if_pos rfl])
  · exact file?_eq_of_kind? (by rw [hkind, if_neg hk])

end WireSchema.Tree
