import Mathlib.Data.List.Nodup
import WireSchema.Schema.Clash

/-!
# The pair of the first clash

The elements before the first clash have different keys, so only one of them can have the key of
the element that clashes. The main statement says which pair is answered: the second element of it
is the first one whose key came before, and the first element is the one it came with.
-/

namespace WireSchema

variable {α β : Type} {key : α → β}

/-- Where the keys are different, an element has none of the keys before it. -/
theorem key_ne_of_nodup {x : α} {before after : List α}
    (h : ((before ++ x :: after).map key).Nodup) : ∀ b ∈ before, key b ≠ key x := by
  intro b hb
  rw [List.map_append, List.map_cons] at h
  exact (List.nodup_append.mp h).2.2 _ (List.mem_map_of_mem hb) _ List.mem_cons_self

variable [DecidableEq β]

/-- Elements without a clash among them are passed. -/
theorem firstClashAfter?_append {seen passed xs : List α} (h : ((seen ++ passed).map key).Nodup) :
    firstClashAfter? key seen (passed ++ xs) = firstClashAfter? key (seen ++ passed) xs := by
  induction passed generalizing seen with
  | nil => rw [List.nil_append, List.append_nil]
  | cons a passed ih =>
    have hfind : (seen.find? fun b ↦ key b == key a) = none := by
      have hne := key_ne_of_nodup h
      simpa using hne
    rw [List.append_cons] at h ⊢
    rw [List.cons_append, firstClashAfter?, hfind]
    exact ih h

/-- Where the keys are different, an element is found by its key. -/
theorem find?_key_of_nodup {x : α} {before after : List α}
    (h : ((before ++ x :: after).map key).Nodup) :
    ((before ++ x :: after).find? fun b ↦ key b == key x) = some x := by
  rw [List.find?_eq_some_iff_append]
  refine ⟨beq_self_eq_true _, before, after, rfl, ?_⟩
  have hne := key_ne_of_nodup h
  simpa using hne

/-- A clash is found with an element seen or passed before. -/
theorem exists_of_firstClashAfter? {seen xs : List α} {x y : α} (hseen : (seen.map key).Nodup)
    (h : firstClashAfter? key seen xs = some (x, y)) :
    ∃ passed after, xs = passed ++ y :: after ∧ ((seen ++ passed).map key).Nodup ∧
      ∃ before between, seen ++ passed = before ++ x :: between ∧ key x = key y := by
  induction xs generalizing seen with
  | nil => cases h
  | cons a xs ih =>
    rw [firstClashAfter?] at h
    cases hf : seen.find? fun b ↦ key b == key a with
    | some b =>
      rw [hf] at h
      cases h
      obtain ⟨hkey, before, between, hs, _⟩ := List.find?_eq_some_iff_append.mp hf
      exact ⟨[], xs, rfl, by rwa [List.append_nil], before, between, by rwa [List.append_nil],
        eq_of_beq hkey⟩
    | none =>
      rw [hf] at h
      have hnew : ((seen ++ [a]).map key).Nodup := by
        rw [List.map_append, List.map_singleton, ← List.concat_eq_append]
        refine hseen.concat fun hm ↦ ?_
        obtain ⟨b, hb, hkey⟩ := List.mem_map.mp hm
        exact List.find?_eq_none.mp hf b hb (beq_iff_eq.mpr hkey)
      obtain ⟨passed, after, rfl, hnodup, hx⟩ := ih hnew h
      rw [← List.append_cons] at hnodup hx
      exact ⟨a :: passed, after, rfl, hnodup, hx⟩

/-- Two elements are the first clash exactly if they have the same key, and no two of the elements
before the second one do. -/
theorem firstClash?_eq_some_iff {xs : List α} {x y : α} :
    firstClash? key xs = some (x, y) ↔
      ∃ before between after, xs = before ++ x :: (between ++ y :: after) ∧ key x = key y ∧
        ((before ++ x :: between).map key).Nodup := by
  constructor
  · intro h
    have hseen : (([] : List α).map key).Nodup := List.nodup_nil
    obtain ⟨passed, after, rfl, hnodup, before, between, hp, hkey⟩ :=
      exists_of_firstClashAfter? hseen h
    rw [List.nil_append] at hnodup hp
    subst hp
    exact ⟨before, between, after, by simp, hkey, hnodup⟩
  · rintro ⟨before, between, after, rfl, hkey, hnodup⟩
    have hsplit : before ++ x :: (between ++ y :: after) =
        (before ++ x :: between) ++ y :: after := by simp
    rw [firstClash?, hsplit, firstClashAfter?_append (by rwa [List.nil_append]), List.nil_append,
      firstClashAfter?, ← hkey, find?_key_of_nodup hnodup]

private theorem firstClashAfter?_map {γ : Type} (f : γ → α) (seen xs : List γ) :
    firstClashAfter? key (seen.map f) (xs.map f) =
      (firstClashAfter? (key ∘ f) seen xs).map (Prod.map f f) := by
  induction xs generalizing seen with
  | nil => rfl
  | cons x xs ih =>
    rw [List.map_cons, firstClashAfter?, firstClashAfter?, List.find?_map]
    have hfind : ((fun y ↦ key y == key (f x)) ∘ f) = fun y ↦ (key ∘ f) y == (key ∘ f) x := rfl
    rw [hfind]
    cases seen.find? fun y ↦ (key ∘ f) y == (key ∘ f) x with
    | some y => rfl
    | none =>
      have hi := ih (seen ++ [x])
      rwa [List.map_append, List.map_singleton] at hi

/-- Elements that are made from others clash as those do. -/
theorem firstClash?_map {γ : Type} (f : γ → α) (xs : List γ) :
    firstClash? key (xs.map f) = (firstClash? (key ∘ f) xs).map (Prod.map f f) :=
  firstClashAfter?_map f [] xs

end WireSchema
