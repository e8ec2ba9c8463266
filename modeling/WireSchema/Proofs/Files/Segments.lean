import WireSchema.Files.Path

/-!
# Paths made of segments

A segment is the name of a place below another one. Pushing it to a path adds it behind the path,
with one slash between them unless the path is empty or ends in one, so the parts of the path stay
as they are, an empty one at its end apart. The main statements say this of any number of segments.
-/

namespace WireSchema.Path

/-- The name of a place below another one: not empty, without slashes, and neither the place itself
nor the one above it. -/
structure IsSegment (segment : String) : Prop where
  ne_empty : segment ≠ ""
  not_mem_slash : '/' ∉ segment.toList
  ne_dot : segment ≠ "."
  ne_dotDot : segment ≠ ".."

/-- What comes between a path and a segment that is pushed to it. -/
def joint (path : String) : String :=
  if path = "" ∨ path.toList.getLast? = some '/' then "" else "/"

/-- The parts of a path up to where a segment is pushed to. -/
def leading (path : String) : List String :=
  if path = "" then [] else if path.toList.getLast? = some '/' then (parts path).dropLast
  else parts path

variable {segment : String}

/-! ### Texts -/

/-- A segment is pushed behind the joint. -/
theorem push_eq (h : IsSegment segment) (path : String) :
    push path segment = path ++ joint path ++ segment := by
  have hslash : segment.toList.head? ≠ some '/' := fun hhead ↦
    h.not_mem_slash (List.mem_of_head? hhead)
  rw [push, if_neg hslash, joint]
  by_cases hempty : path = ""
  · simp [hempty]
  · by_cases hlast : path.toList.getLast? = some '/'
    · simp [hlast]
    · simp [hempty, hlast]

/-- Behind a segment the next joint is a slash. -/
theorem joint_append (h : IsSegment segment) (path : String) : joint (path ++ segment) = "/" := by
  have hne : segment.toList ≠ [] := by simpa using h.ne_empty
  have hempty : path ++ segment ≠ "" := by simp [h.ne_empty]
  have hlast : (path ++ segment).toList.getLast? ≠ some '/' := by
    rw [String.toList_append, List.getLast?_append, List.getLast?_eq_some_getLast hne,
      Option.some_or]
    exact fun hl ↦ h.not_mem_slash (Option.some.inj hl ▸ List.getLast_mem hne)
  exact if_neg (not_or.mpr ⟨hempty, hlast⟩)

/-- Segments are pushed behind the joint with slashes between them. -/
theorem foldl_push {segments : List String} (hne : segments ≠ [])
    (h : ∀ s ∈ segments, IsSegment s) (path : String) :
    segments.foldl push path = path ++ joint path ++ "/".intercalate segments := by
  induction segments generalizing path with
  | nil => exact absurd rfl hne
  | cons s segments ih =>
    obtain ⟨hs, hrest⟩ := List.forall_mem_cons.mp h
    rw [List.foldl_cons, push_eq hs]
    cases segments with
    | nil => rw [List.foldl_nil, String.intercalate_singleton]
    | cons t segments =>
      rw [ih (by simp) hrest, joint_append hs, String.intercalate_cons_cons]
      simp only [String.append_assoc]

/-! ### Parts -/

/-- A segment is its only part. -/
theorem parts_segment (h : IsSegment segment) : parts segment = [segment] := by
  rw [parts, List.splitOn_eq_singleton h.not_mem_slash, List.map_singleton, String.ofList_toList]

/-- The parts on both sides of a slash are those of the texts there. -/
theorem parts_append_slash (path rest : String) :
    parts (path ++ "/" ++ rest) = parts path ++ parts rest := by
  simp only [parts, String.toList_append, List.append_assoc, ← List.map_append]
  congr 1
  exact List.splitOn_append_cons_self path.toList rest.toList

/-- The steps on both sides of a slash are taken one after the other. -/
theorem steps_append_slash (path rest : String) :
    steps (path ++ "/" ++ rest) = steps path ++ steps rest := by
  rw [steps, parts_append_slash, List.filter_append]
  rfl

/-- A path that ends in a slash has an empty part at its end. -/
theorem exists_parts_of_slash {path : String} (h : path.toList.getLast? = some '/') :
    ∃ init, path = init ++ "/" ∧ parts path = parts init ++ [""] := by
  obtain ⟨init, hinit⟩ := List.getLast?_eq_some_iff.mp h
  have hpath : path = String.ofList init ++ "/" := by
    rw [← String.toList_inj, hinit, String.toList_append, String.toList_ofList]
    rfl
  have hparts := parts_append_slash (String.ofList init) ""
  rw [String.append_empty, ← hpath] at hparts
  exact ⟨String.ofList init, hpath, hparts⟩

/-- A last row of characters is joined behind a slash. -/
private theorem intercalate_concat {ls : List String} (h : ls ≠ []) (s : String) :
    "/".intercalate (ls ++ [s]) = "/".intercalate ls ++ "/" ++ s := by
  induction ls with
  | nil => exact absurd rfl h
  | cons first ls ih =>
    cases ls with
    | nil => rw [List.singleton_append, String.intercalate_cons_cons, String.intercalate_singleton,
        String.intercalate_singleton]
    | cons next ls =>
      rw [List.cons_append, List.cons_append, String.intercalate_cons_cons, ← List.cons_append,
        ih (by simp), String.intercalate_cons_cons]
      simp only [String.append_assoc]

/-- A path is made of its parts. -/
theorem intercalate_parts (path : String) : "/".intercalate (parts path) = path := by
  have hparts : (parts path).map String.toList = path.toList.splitOn '/' := by
    rw [parts, List.map_map]
    simp [Function.comp_def]
  rw [← String.toList_inj, String.toList_intercalate, hparts]
  exact List.intercalate_splitOn '/'

/-- Only the empty path and one that ends in a slash have an empty part at their end. -/
theorem last_ne_empty {path : String} (hempty : path ≠ "")
    (hslash : path.toList.getLast? ≠ some '/') {init : List String} {last : String}
    (h : parts path = init ++ [last]) : last ≠ "" := by
  rintro rfl
  have hpath := intercalate_parts path
  rw [h] at hpath
  cases init with
  | nil => exact hempty hpath.symm
  | cons first init =>
    rw [intercalate_concat (by simp), String.append_empty] at hpath
    refine hslash ?_
    rw [← hpath, String.toList_append, List.getLast?_append]
    rfl

/-- A pushed segment is the last part. -/
theorem parts_push (h : IsSegment segment) (path : String) :
    parts (push path segment) = leading path ++ [segment] := by
  rw [push_eq h, joint, leading]
  by_cases hempty : path = ""
  · simp [hempty, parts_segment h]
  · by_cases hlast : path.toList.getLast? = some '/'
    · obtain ⟨init, hpath, hparts⟩ := exists_parts_of_slash hlast
      rw [if_pos (.inr hlast), if_neg hempty, if_pos hlast, hparts, List.dropLast_concat,
        String.append_empty, hpath, parts_append_slash, parts_segment h]
    · rw [if_neg (not_or.mpr ⟨hempty, hlast⟩), if_neg hempty, if_neg hlast, parts_append_slash,
        parts_segment h]

/-- No part of the path is lost that leads somewhere. -/
theorem filter_leading (path : String) :
    (leading path).filter (fun part ↦ !isIdle part) = steps path := by
  unfold leading steps
  split
  next hempty =>
    subst hempty
    rfl
  next hempty =>
    split
    next hlast =>
      obtain ⟨init, _, hparts⟩ := exists_parts_of_slash hlast
      have hidle : isIdle "" = true := rfl
      rw [hparts, List.dropLast_concat, List.filter_append]
      simp [hidle]
    next hlast => rfl

/-- A pushed segment leads one step further. -/
theorem steps_push (h : IsSegment segment) (path : String) :
    steps (push path segment) = steps path ++ [segment] := by
  have hidle : isIdle segment = false := by simp [isIdle, h.ne_empty, h.ne_dot]
  rw [steps, parts_push h, List.filter_append, filter_leading]
  simp [hidle]

/-- Pushed segments lead a step further each. -/
theorem steps_foldl_push {segments : List String} (h : ∀ s ∈ segments, IsSegment s)
    (path : String) : steps (segments.foldl push path) = steps path ++ segments := by
  induction segments generalizing path with
  | nil => simp
  | cons s segments ih =>
    obtain ⟨hs, hrest⟩ := List.forall_mem_cons.mp h
    rw [List.foldl_cons, ih hrest, steps_push hs, List.append_assoc, List.singleton_append]

/-- Pushing a segment leads no place up. -/
theorem dotDot_not_mem_parts_push (h : IsSegment segment) {path : String}
    (hpath : ".." ∉ parts path) : ".." ∉ parts (push path segment) := by
  have hleading : ".." ∉ leading path := by
    unfold leading
    split
    · exact List.not_mem_nil
    · split
      · exact fun hm ↦ hpath (List.dropLast_subset _ hm)
      · exact hpath
  rw [parts_push h, List.mem_append, List.mem_singleton, not_or]
  exact ⟨hleading, h.ne_dotDot.symm⟩

/-- Pushing segments leads no place up. -/
theorem dotDot_not_mem_parts_foldl_push {segments : List String}
    (h : ∀ s ∈ segments, IsSegment s) {path : String} (hpath : ".." ∉ parts path) :
    ".." ∉ parts (segments.foldl push path) := by
  induction segments generalizing path with
  | nil => exact hpath
  | cons s segments ih =>
    obtain ⟨hs, hrest⟩ := List.forall_mem_cons.mp h
    exact ih hrest (dotDot_not_mem_parts_push hs hpath)

end WireSchema.Path
