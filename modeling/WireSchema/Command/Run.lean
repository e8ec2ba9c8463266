import WireSchema.Command.Arguments
import WireSchema.Command.Compile
import WireSchema.Files.Placement
import WireSchema.Schema.Dump

/-!
# Running the command

Each input is compiled and then delivered as the invocation asks: its descriptor is printed as
JSON, its code is printed, or its code is placed below the output directory. Inputs are processed
in order, and the first failure ends the run; what was printed and written before it stays. A run
depends on the disk that the files are on, and on the output that takes what is printed.
-/

namespace WireSchema

/-- How a compiled schema is delivered. -/
inductive Delivery
  | print (text : String)
  | file (path text : String)
  deriving DecidableEq, Repr

/-- What a run changes: the files, and the bytes printed so far. -/
structure Session where
  tree : Tree
  output : List UInt8

/-- The text printed so far, if it is one. -/
def Session.printed (s : Session) : String := (Text.ofUtf8? s.output).getD ""

/-- What a run depends on besides its files. -/
structure Devices where
  /-- The disk that the files are on. -/
  disk : Disk
  /-- The limit of the output behind the bytes printed so far. -/
  output? : List UInt8 → Option Limit

namespace Devices

/-- Devices that take everything. -/
def reliable : Devices := ⟨Disk.reliable, fun _ ↦ none⟩

/-- Prints a text, up to the limit of the output. -/
def print (devices : Devices) (s : Session) (text : String) :
    Except CompileError Unit × Session :=
  let (answer, taken) := takeUpTo (devices.output? s.output) (Text.utf8 text)
  (answer.mapError .file, { s with output := s.output ++ taken })

/-- Delivers a result. -/
def deliver (devices : Devices) (s : Session) : Delivery → Except CompileError Unit × Session
  | .print text => devices.print s text
  | .file path text =>
    match devices.disk.writeIfChanged s.tree path text with
    | (.error e, t) => (.error (.file e), { s with tree := t })
    | (.ok _, t) => (.ok (), { s with tree := t })

end Devices

namespace Invocation

/-- The options for the code of an input. -/
def options (inv : Invocation) (input : String) : Codegen.Options :=
  Codegen.Options.withSource { target := inv.target } input

/-- How the result of an input is delivered. Asking for JSON comes before asking for the code. -/
def delivery (inv : Invocation) (m : Message) (code : String) : Delivery :=
  if inv.json then .print (m.dump ++ "\n")
  else if inv.stdout then .print code
  else .file (Codegen.outputPath inv.out m inv.target) code

/-- Compiles and delivers one input. -/
def process (inv : Invocation) (devices : Devices) (s : Session) (input : String) :
    Except CompileError Unit × Session :=
  match Codegen.compileFile s.tree input (inv.options input) with
  | .error e => (.error e, s)
  | .ok (m, code) => devices.deliver s (inv.delivery m code)

/-- Processes inputs in order up to the first failure. -/
def processAll (inv : Invocation) (devices : Devices) (s : Session) :
    List String → Except CompileError Unit × Session
  | [] => (.ok (), s)
  | input :: inputs =>
    match inv.process devices s input with
    | (.error e, s') => (.error e, s')
    | (.ok (), s') => inv.processAll devices s' inputs

/-- Runs the command on a tree of files. -/
def runOn (inv : Invocation) (devices : Devices) (t : Tree) :
    Except CompileError Unit × Session :=
  inv.processAll devices ⟨t, []⟩ inv.inputs

/-- Runs the command on a tree of files, with devices that take everything. -/
def run (inv : Invocation) (t : Tree) : Except CompileError Unit × Session :=
  inv.runOn .reliable t

end Invocation

end WireSchema
