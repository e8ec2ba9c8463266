import WireSchema.Command.Run

/-!
# The command

Runs an invocation on the files of the system. Arguments that are refused end the program with
code 2, and the first input that fails ends it with code 1.
-/

namespace WireSchema

/-- Writes a text to a path unless the file already holds it. -/
def placeText (path text : String) : IO Unit := do
  let current ←
    try
      some <$> IO.FS.readBinFile path
    catch
      | .noFileOrDirectory .. => pure none
      | e => throw e
  if current != some text.toUTF8 then
    let directories := Path.parent path
    if !directories.isEmpty then IO.FS.createDirAll directories
    IO.FS.writeBinFile path text.toUTF8

/-- Compiles and delivers one input. -/
def processInput (inv : Invocation) (input : String) : IO Unit := do
  let bytes ← IO.FS.readBinFile input
  match Codegen.compileBytes input bytes.data.toList (inv.options input) with
  | .error e => throw (IO.userError e.message)
  | .ok (m, code) =>
    match inv.delivery m code with
    | .print text => IO.print text
    | .file path text => placeText path text

end WireSchema

/-- The command line. -/
def main (args : List String) : IO UInt32 := do
  match WireSchema.Invocation.ofArguments? args with
  | none =>
    IO.eprintln "usage: umsg-gen [--stdout] [--json] [--lang rust|cpp] --out DIR INPUT..."
    return 2
  | some inv =>
    try
      inv.inputs.forM (WireSchema.processInput inv)
      return 0
    catch e =>
      IO.eprintln (toString e)
      return 1
