import WireSchema.Files.Path

/-!
# Trees of files

A tree is a file or a directory of named trees; the working directory is the root. A location is
the list of names that lead from the root to a place. Paths are walked part by part: each part is
looked up in a directory that has to be there, also an empty part, so a path that ends in a slash
is only right for a directory. A name that is too long is an error where it is looked up; a path
that is too long, or empty, or has a NUL in it, is an error by itself. The main statements say what
is found at a location after something was set there or elsewhere.
-/

namespace WireSchema

/-- A file with its bytes, or a directory of named trees. Of several trees with one name in a
directory only the first is found. -/
inductive Tree
  | file (bytes : List UInt8)
  | directory (entries : List (String × Tree))

/-- Why an operation on files fails. -/
inductive FileError
  | notFound | notDirectory | isDirectory | inTheWay | nameTooLong | nulInPath | invalidText
  /-- A device fails by itself, and the system words its error. -/
  | device (wording : String)
  deriving DecidableEq, Repr

/-- The system's wording of an error. -/
def FileError.message : FileError → String
  | notFound => "No such file or directory (os error 2)"
  | notDirectory => "Not a directory (os error 20)"
  | isDirectory => "Is a directory (os error 21)"
  | inTheWay => "File exists (os error 17)"
  | nameTooLong => "File name too long (os error 36)"
  | nulInPath => "file name contained an unexpected NUL byte"
  | invalidText => "stream did not contain valid UTF-8"
  | device wording => wording

/-- The error that a path makes by itself, whatever the files are. A path with a NUL never gets as
far as its length. -/
def FileError.ofPath? (path : String) : Option FileError :=
  if path.toList.contains '\u0000' then some .nulInPath
  else if path.isEmpty then some .notFound
  else if Path.limit < path.utf8ByteSize then some .nameTooLong
  else none

/-- The names that lead from the root to a place. -/
abbrev Location := List String

namespace Tree

/-- The tree without files. -/
def empty : Tree := directory []

/-- What a directory holds under a name. -/
def child? (t : Tree) (name : String) : Option Tree :=
  match t with
  | file _ => none
  | directory entries => entries.lookup name

/-- What stands at a location. -/
def get? (t : Tree) : Location → Option Tree
  | [] => some t
  | name :: l =>
    match t.child? name with
    | none => none
    | some c => c.get? l

/-- The bytes of the file at a location, if it is a file. -/
def file? (t : Tree) (l : Location) : Option (List UInt8) :=
  match t.get? l with
  | some (file bytes) => some bytes
  | _ => none

/-- The directory with a tree under a name, in the place of what it held there. A file stays as it
is. -/
def setChild (t : Tree) (name : String) (c : Tree) : Tree :=
  match t with
  | file bytes => file bytes
  | directory entries => directory ((name, c) :: entries.filter fun p ↦ p.1 != name)

/-- The directory with nothing under a name. A file stays as it is. -/
def eraseChild (t : Tree) (name : String) : Tree :=
  match t with
  | file bytes => file bytes
  | directory entries => directory (entries.filter fun p ↦ p.1 != name)

/-- The tree changed by `f` in the directory that a location is in. It stays as it is where there
is no such directory. -/
def modifyParent (f : Tree → String → Tree) (t : Tree) : Location → Tree
  | [] => t
  | [name] => f t name
  | name :: next :: l =>
    match t.child? name with
    | none => t
    | some c => t.setChild name (modifyParent f c (next :: l))

/-- The tree with another one at a location. -/
def set (t : Tree) (l : Location) (new : Tree) : Tree :=
  modifyParent (fun parent name ↦ parent.setChild name new) t l

/-- The tree with nothing at a location. -/
def erase (t : Tree) (l : Location) : Tree := modifyParent eraseChild t l

/-- The place that a part of a path leads to, from a directory that has to be there. -/
def enter (t : Tree) (l : Location) (part : String) : Except FileError Location :=
  match t.get? l with
  | none => .error .notFound
  | some (file _) => .error .notDirectory
  | some (directory _) =>
    if Path.isIdle part then .ok l
    else if part = ".." then .ok l.dropLast
    else if Path.isOverlong part then .error .nameTooLong
    else .ok (l ++ [part])

/-- The place that the parts of a path lead to. -/
def walk (t : Tree) (l : Location) : List String → Except FileError Location
  | [] => .ok l
  | part :: parts =>
    match t.enter l part with
    | .error e => .error e
    | .ok next => t.walk next parts

/-- The bytes of the file at a path. -/
def read (t : Tree) (path : String) : Except FileError (List UInt8) :=
  match FileError.ofPath? path with
  | some e => .error e
  | none =>
    match t.walk [] (Path.parts path) with
    | .error e => .error e
    | .ok l =>
      match t.get? l with
      | none => .error .notFound
      | some (directory _) => .error .isDirectory
      | some (file bytes) => .ok bytes

/-- The place where a file is opened for writing at a path. Its directory has to be there. -/
def placeToWrite (t : Tree) (path : String) : Except FileError Location :=
  match FileError.ofPath? path with
  | some e => .error e
  | none =>
    match (Path.parts path).reverse.dropWhile String.isEmpty with
    | [] => .error .isDirectory
    | last :: before =>
      match t.walk [] (before.reverse ++ ["."]) with
      | .error e => .error e
      | .ok l =>
        if last = "." || last = ".." || path.toList.getLast? = some '/' then .error .isDirectory
        else if Path.isOverlong last then .error .nameTooLong
        else
          match t.get? (l ++ [last]) with
          | some (directory _) => .error .isDirectory
          | _ => .ok (l ++ [last])

mutual

/-- The files of a tree with their names below the given location, joined with slashes. -/
def filesBelow (l : Location) : Tree → List (Location × List UInt8)
  | file bytes => [(l, bytes)]
  | directory entries => filesAmong l entries

/-- The files of the named trees of a directory. -/
def filesAmong (l : Location) : List (String × Tree) → List (Location × List UInt8)
  | [] => []
  | (name, t) :: entries => t.filesBelow (l ++ [name]) ++ filesAmong l entries

end

/-- The files of a tree that another tree does not hold with the same bytes, by their names joined
with slashes, in the order of these. -/
def filesSince (t before : Tree) : List (String × List UInt8) :=
  (((t.filesBelow []).filter fun (l, bytes) ↦ before.file? l != some bytes).map
    fun (l, bytes) ↦ ("/".intercalate l, bytes)).mergeSort fun a b ↦ a.1 ≤ b.1

private theorem lookup_filter_of_ne (es : List (String × Tree)) {name other : String}
    (h : other ≠ name) : (es.filter fun p ↦ p.1 != name).lookup other = es.lookup other := by
  induction es with
  | nil => rfl
  | cons p es ih =>
    by_cases hp : p.1 = name
    · have hk : (other == p.1) = false := by simpa [hp] using h
      simp only [List.filter_cons, hp, bne_self_eq_false, Bool.false_eq_true, if_false]
      rw [ih, List.lookup_cons, hk]
    · simp only [List.filter_cons, bne_iff_ne, ne_eq, hp, not_false_eq_true, if_true]
      rw [List.lookup_cons, List.lookup_cons, ih]

/-- What is set under a name is found there. -/
theorem child?_setChild_self (entries : List (String × Tree)) (name : String) (c : Tree) :
    ((directory entries).setChild name c).child? name = some c := by
  simp [setChild, child?]

/-- Setting one name leaves the others as they are. -/
theorem child?_setChild_of_ne (t : Tree) {name other : String} (c : Tree) (h : other ≠ name) :
    (t.setChild name c).child? other = t.child? other := by
  cases t with
  | file bytes => rfl
  | directory entries =>
    have hk : (other == name) = false := by simpa using h
    simp only [setChild, child?, List.lookup_cons, hk, lookup_filter_of_ne _ h]

/-- Only a directory holds something. -/
theorem exists_directory_of_child? {t c : Tree} {name : String} (h : t.child? name = some c) :
    ∃ entries, t = directory entries := by
  cases t with
  | file bytes => cases h
  | directory entries => exact ⟨entries, rfl⟩

/-- What stands at a location is found step by step. -/
theorem get?_append (t : Tree) (l k : Location) :
    t.get? (l ++ k) = (t.get? l).bind fun c ↦ c.get? k := by
  induction l generalizing t with
  | nil => rfl
  | cons name l ih =>
    simp only [List.cons_append, get?]
    cases t.child? name with
    | none => rfl
    | some c => exact ih c

/-- What is set at a place in a directory is found there. -/
theorem get?_set_self {t : Tree} {l : Location} {name : String} {entries : List (String × Tree)}
    (new : Tree) (h : t.get? l = some (directory entries)) :
    (t.set (l ++ [name]) new).get? (l ++ [name]) = some new := by
  induction l generalizing t with
  | nil =>
    cases h
    simp [set, modifyParent, get?, child?_setChild_self]
  | cons first l ih =>
    simp only [get?] at h
    cases hc : t.child? first with
    | none => simp [hc] at h
    | some c =>
      rw [hc] at h
      obtain ⟨es, rfl⟩ := exists_directory_of_child? hc
      obtain ⟨next, k, hk⟩ := List.exists_cons_of_ne_nil (List.concat_ne_nil name l)
      have hi := ih h
      rw [hk] at hi
      simp only [List.cons_append, hk, set, modifyParent, hc, get?, child?_setChild_self]
      exact hi

end Tree

end WireSchema
