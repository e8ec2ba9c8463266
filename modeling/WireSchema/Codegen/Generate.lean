import WireSchema.Codegen.CppHeader
import WireSchema.Codegen.RustModule
import WireSchema.Files.Path
import WireSchema.Schema.Parse

/-!
# Code for a message

The target language and the name of the schema file decide what is generated for a message, and
the package of the message where it is placed.
-/

namespace WireSchema

/-- The language of generated code. -/
inductive Target
  | rust | cpp
  deriving DecidableEq, Repr, Inhabited

/-- The file name extension of generated code, without its dot. -/
def Target.extension : Target → String
  | rust => "rs"
  | cpp => "hpp"

namespace Codegen

/-- What is asked for: the target, and the name of the schema file for the banner. -/
structure Options where
  target : Target := .rust
  sourceName : Option String := none
  deriving DecidableEq, Repr

/-- The options with the schema file at a path: only its name is kept, so that the code does not
depend on where the generator runs. -/
def Options.withSource (options : Options) (path : String) : Options :=
  { options with sourceName := Path.fileName? path }

/-- The code for a message. -/
def generate (m : Message) (options : Options) : Except SchemaError String :=
  match options.target with
  | .rust => RustModule.render m options.sourceName
  | .cpp => .ok (CppHeader.render m options.sourceName)

/-- The descriptor of a schema text together with its code. -/
def compile (source : String) (options : Options) : Except SchemaError (Message × String) := do
  let m ← Message.parse source
  let code ← generate m options
  return (m, code)

/-- Where the code of a message goes: below the output directory one directory for each part of
the package, and in it a file named after the struct. -/
def outputPath (outDir : String) (m : Message) (target : Target) : String :=
  Path.push (m.packageSegments.foldl Path.push outDir) (m.structName ++ "." ++ target.extension)

end Codegen

end WireSchema
