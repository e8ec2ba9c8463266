import WireSchema.Files.Tree

/-!
# Disks

A tree of files is kept on a disk. Where the tree has nothing against an operation, the disk still
may: it can refuse to make anything at a place, and it can break off in the bytes of a file that it
has opened. The file has lost its old bytes by then, and keeps those of the new ones that the disk
took. A disk answers by what the files are, so the same operation on the same files ends alike.
-/

namespace WireSchema

/-- A limit of a device: the most bytes that it takes, and the wording of its error for more. -/
structure Limit where
  room : Nat
  wording : String
  deriving DecidableEq, Repr

/-- What comes of bytes that a device is given up to its limit, and the bytes that it has taken. -/
def takeUpTo (limit? : Option Limit) (bytes : List UInt8) :
    Except FileError Unit × List UInt8 :=
  match limit? with
  | none => (.ok (), bytes)
  | some limit =>
    if bytes.length ≤ limit.room then (.ok (), bytes)
    else (.error (.device limit.wording), bytes.take limit.room)

/-- How a disk answers where the tree on it has nothing against an operation. -/
structure Disk where
  /-- Why nothing can be made at a place, in the system's wording. -/
  refusal? : Tree → Location → Option String
  /-- The limit of a file that is opened for writing at a place. -/
  limit? : Tree → Location → Option Limit

namespace Disk

/-- The disk that makes everything and takes all bytes. -/
def reliable : Disk := ⟨fun _ _ ↦ none, fun _ _ ↦ none⟩

/-- The tree with the directories that the steps of a path go through. A file in the way, a name
that is too long and a refusal of the disk are errors, and the directories made before them stay. -/
def makeDirectories (disk : Disk) (t : Tree) (l : Location) :
    List String → Except FileError Unit × Tree
  | [] => (.ok (), t)
  | step :: steps =>
    if step = ".." then disk.makeDirectories t l.dropLast steps
    else if Path.isOverlong step then (.error .nameTooLong, t)
    else
      match t.get? (l ++ [step]) with
      | some (.directory _) => disk.makeDirectories t (l ++ [step]) steps
      | some (.file _) => (.error .inTheWay, t)
      | none =>
        match disk.refusal? t (l ++ [step]) with
        | some wording => (.error (.device wording), t)
        | none => disk.makeDirectories (t.set (l ++ [step]) .empty) (l ++ [step]) steps

/-- The tree with a file at a place, opened there and given the bytes. -/
def fill (disk : Disk) (t : Tree) (l : Location) (bytes : List UInt8) :
    Except FileError Unit × Tree :=
  match disk.refusal? t l with
  | some wording => (.error (.device wording), t)
  | none =>
    let (answer, taken) := takeUpTo (disk.limit? t l) bytes
    (answer, t.set l (.file taken))

/-- The tree with the bytes as the file at a path, whose directory has to be there. -/
def write (disk : Disk) (t : Tree) (path : String) (bytes : List UInt8) :
    Except FileError Unit × Tree :=
  match t.placeToWrite path with
  | .error e => (.error e, t)
  | .ok l => disk.fill t l bytes

end Disk

/-- The tree with the directories that the steps of a path go through, on a reliable disk. -/
def Tree.makeDirectories (t : Tree) (l : Location) (steps : List String) :
    Except FileError Unit × Tree :=
  Disk.reliable.makeDirectories t l steps

end WireSchema
