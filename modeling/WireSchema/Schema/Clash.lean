/-!
# The first clash in a list

Two elements clash when a key is the same for both. `firstClash?` goes through a list in order and
answers the first element that clashes with an earlier one, together with that one. The main
statement says that it finds nothing exactly when the keys are pairwise different.
-/

namespace WireSchema

variable {α β : Type} [DecidableEq β]

/-- The first element that clashes with one of `seen` or with an earlier element, after the one it
clashes with. -/
def firstClashAfter? (key : α → β) (seen : List α) : List α → Option (α × α)
  | [] => none
  | x :: xs =>
    match seen.find? fun y ↦ key y == key x with
    | some y => some (y, x)
    | none => firstClashAfter? key (seen ++ [x]) xs

/-- The first element that clashes with an earlier element, after the one it clashes with. -/
def firstClash? (key : α → β) (xs : List α) : Option (α × α) := firstClashAfter? key [] xs

private theorem firstClashAfter?_eq_none_iff (key : α → β) (seen xs : List α)
    (h : (seen.map key).Nodup) :
    firstClashAfter? key seen xs = none ↔ ((seen ++ xs).map key).Nodup := by
  induction xs generalizing seen with
  | nil => simpa [firstClashAfter?] using h
  | cons x xs ih =>
    simp only [firstClashAfter?]
    cases hf : seen.find? fun y ↦ key y == key x with
    | some y =>
      have hy := List.find?_some hf
      have hm := List.mem_of_find?_eq_some hf
      simp only [reduceCtorEq, false_iff, List.map_append, List.map_cons]
      intro hn
      exact (List.nodup_append.mp hn).2.2 _ (List.mem_map_of_mem hm) _ List.mem_cons_self
        (eq_of_beq hy)
    | none =>
      have hx : ∀ y ∈ seen, key y ≠ key x := by
        simpa using List.find?_eq_none.mp hf
      rw [ih (seen ++ [x])]
      · simp
      · simp only [List.map_append, List.map_cons, List.map_nil]
        refine List.nodup_append.mpr ⟨h, by simp, ?_⟩
        intro a ha b hb
        obtain ⟨y, hy, rfl⟩ := List.mem_map.mp ha
        rw [List.mem_singleton.mp hb]
        exact hx y hy

/-- Nothing clashes exactly when all keys are different. -/
theorem firstClash?_eq_none_iff {key : α → β} {xs : List α} :
    firstClash? key xs = none ↔ (xs.map key).Nodup :=
  firstClashAfter?_eq_none_iff key [] xs List.nodup_nil

end WireSchema
