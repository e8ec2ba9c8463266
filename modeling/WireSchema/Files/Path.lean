/-!
# Paths

A path is a text whose parts are separated by slashes. An empty part and the part `.` stand for
the directory they are in, `..` for the directory above. The system bounds the bytes of a part and
of a whole path.
-/

namespace WireSchema.Path

/-- The parts of a path, empty ones included. -/
def parts (path : String) : List String := (path.toList.splitOn '/').map String.ofList

/-- Whether a part stands for the directory it is in. -/
def isIdle (part : String) : Bool := part.isEmpty || part == "."

/-- The most bytes of a name. -/
def nameLimit : Nat := 255

/-- The most bytes of a path. -/
def limit : Nat := 4095

/-- Whether a part has more bytes than a name may have. -/
def isOverlong (part : String) : Bool := nameLimit < part.utf8ByteSize

/-- The parts that lead somewhere else. -/
def steps (path : String) : List String := (parts path).filter fun part ↦ !isIdle part

/-- The last part that leads somewhere, if it is a name. -/
def fileName? (path : String) : Option String :=
  (steps path).getLast?.filter fun part ↦ part != ".."

/-- The path without its last part. -/
def parent (path : String) : String := "/".intercalate (parts path).dropLast

/-- The path extended by a segment, with a slash between them unless the path is empty or ends in
one. A segment that starts with a slash is a path of its own and takes the place of the first. -/
def push (path segment : String) : String :=
  if segment.toList.head? = some '/' then segment
  else if path.isEmpty || path.toList.getLast? = some '/' then path ++ segment
  else path ++ "/" ++ segment

end WireSchema.Path
