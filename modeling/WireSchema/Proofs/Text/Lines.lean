import WireSchema.Text.Lines

/-!
# Lines of a text

A text is split into its lines again at its line feeds. A line that has a line feed itself is more
than one line then, and every other one is found as it is.
-/

namespace WireSchema.Text

/-- The text has the given line. -/
def HasLine (text line : String) : Prop := line.toList ∈ text.toList.splitOn '\n'

/-- Joined lines are split into the lines of each of them. -/
theorem splitOn_joinChars {lines : List (List Char)} (h : lines ≠ []) :
    (joinChars lines).splitOn '\n' = lines.flatMap fun line ↦ line.splitOn '\n' := by
  induction lines with
  | nil => exact absurd rfl h
  | cons line lines ih =>
    cases lines with
    | nil => simp [joinChars]
    | cons next lines =>
      have hjoin : joinChars (line :: next :: lines) = line ++ '\n' :: joinChars (next :: lines) :=
        rfl
      rw [hjoin, List.splitOn_append_cons_self, ih (by simp)]
      rfl

/-- Texts without line feeds are single lines. -/
theorem flatMap_splitOn {lines : List (List Char)} (h : ∀ line ∈ lines, '\n' ∉ line) :
    (lines.flatMap fun line ↦ line.splitOn '\n') = lines := by
  induction lines with
  | nil => rfl
  | cons line lines ih =>
    obtain ⟨hline, hlines⟩ := List.forall_mem_cons.mp h
    rw [List.flatMap_cons, List.splitOn_eq_singleton hline, ih hlines, List.singleton_append]

/-- Lines without line feeds are the lines of the text that they are joined to. -/
theorem splitOn_joinLines {lines : List String} (hne : lines ≠ [])
    (hfeed : ∀ line ∈ lines, '\n' ∉ line.toList) :
    (joinLines lines).toList.splitOn '\n' = lines.map String.toList := by
  have hmap : lines.map String.toList ≠ [] := by simpa using hne
  rw [toList_joinLines, splitOn_joinChars hmap, flatMap_splitOn (List.forall_mem_map.mpr hfeed)]

/-- Lines without line feeds are joined to the text of no other such lines. -/
theorem joinLines_inj {lines lines' : List String} (hne : lines ≠ []) (hne' : lines' ≠ [])
    (hfeed : ∀ line ∈ lines, '\n' ∉ line.toList) (hfeed' : ∀ line ∈ lines', '\n' ∉ line.toList) :
    joinLines lines = joinLines lines' ↔ lines = lines' := by
  constructor
  · intro h
    have hlines := splitOn_joinLines hne hfeed
    rw [h, splitOn_joinLines hne' hfeed'] at hlines
    exact (List.map_inj_right fun _ _ ↦ String.toList_inj.mp).mp hlines.symm
  · exact congrArg joinLines

/-- Joined lines have each of them that has no line feed. -/
theorem hasLine_joinLines {line : String} {lines : List String} (h : line ∈ lines)
    (hfeed : '\n' ∉ line.toList) : HasLine (joinLines lines) line := by
  have hmem : line.toList ∈ lines.map String.toList := List.mem_map_of_mem h
  have hself : line.toList ∈ line.toList.splitOn '\n' := by
    rw [List.splitOn_eq_singleton hfeed]
    exact List.mem_singleton_self _
  rw [HasLine, toList_joinLines, splitOn_joinChars (List.ne_nil_of_mem hmem)]
  exact List.mem_flatMap.mpr ⟨_, hmem, hself⟩

/-- A character that is none of the given ones is not in the text of them. -/
theorem not_mem_toList_ofList {c : Char} {s : List Char} (h : c ∉ s) :
    c ∉ (String.ofList s).toList := by
  rwa [String.toList_ofList]

/-- A character that is in neither of two texts is not in the two together. -/
theorem not_mem_toList_append {c : Char} {s t : String} (hs : c ∉ s.toList) (ht : c ∉ t.toList) :
    c ∉ (s ++ t).toList := by
  rw [String.toList_append, List.mem_append, not_or]
  exact ⟨hs, ht⟩

end WireSchema.Text
