import WireSchema.Files.Disk
import WireSchema.Text.Utf8

/-!
# Placing a text in a tree

A generated text is written only where it differs from what is there, so that a file that is up to
date is not touched. Directories that are missing on the way to it are made first. The directories
that were made stay when a later step fails, and so does a file in whose bytes the disk breaks off.
-/

namespace WireSchema

/-- What a write did to the file. -/
inductive WriteOutcome
  | created | updated | unchanged
  deriving DecidableEq, Repr

open Text

namespace Disk

/-- Writes the bytes to a path after making the directories before its last step. The empty path
has none. -/
def place (disk : Disk) (t : Tree) (path : String) (bytes : List UInt8) :
    Except FileError Unit × Tree :=
  match disk.makeDirectories t [] (Path.steps path).dropLast with
  | (.error e, t') => (.error e, t')
  | (.ok (), t') => disk.write t' path bytes

/-- Makes the file at a path hold the text, and says what that took. -/
def writeIfChanged (disk : Disk) (t : Tree) (path text : String) :
    Except FileError WriteOutcome × Tree :=
  match t.read path with
  | .error .notFound =>
    let (result, t') := disk.place t path (utf8 text)
    (result.map fun _ ↦ .created, t')
  | .error e => (.error e, t)
  | .ok bytes =>
    if bytes = utf8 text then (.ok .unchanged, t)
    else
      let (result, t') := disk.place t path (utf8 text)
      (result.map fun _ ↦ .updated, t')

end Disk

namespace Tree

/-- Writes the bytes to a path after making the directories before its last step, on a reliable
disk. -/
def place (t : Tree) (path : String) (bytes : List UInt8) : Except FileError Unit × Tree :=
  Disk.reliable.place t path bytes

/-- Makes the file at a path hold the text, on a reliable disk, and says what that took. -/
def writeIfChanged (t : Tree) (path text : String) : Except FileError WriteOutcome × Tree :=
  Disk.reliable.writeIfChanged t path text

end Tree

end WireSchema
