import WireSchema.Codegen.Generate
import WireSchema.Files.Tree
import WireSchema.Text.Utf8

/-!
# Compiling a schema file

A schema file is read, its text compiled, and what is wrong with the schema reported together with
the path. A failure of the file itself has no path in its message.
-/

namespace WireSchema

/-- Why a schema file is not compiled. -/
inductive CompileError
  /-- A file cannot be read or written. -/
  | file (error : FileError)
  /-- The schema is refused; the path may not be known. -/
  | schema (path : Option String) (error : SchemaError)
  deriving DecidableEq, Repr

namespace CompileError

/-- The diagnostic for an error. -/
def message : CompileError → String
  | file e => "I/O error: " ++ e.message
  | schema path e => path.getD "<input>" ++ ": " ++ e.message

/-- The error with the path of its schema, where it has one. -/
def withPath (path : String) : CompileError → CompileError
  | file e => file e
  | schema _ e => schema (some path) e

end CompileError

namespace Codegen

/-- Compiles the bytes of the schema file at a path; they have to be UTF-8. -/
def compileBytes (path : String) (bytes : List UInt8) (options : Options) :
    Except CompileError (Message × String) :=
  match Text.ofUtf8? bytes with
  | none => .error (.file .invalidText)
  | some source =>
    match compile source options with
    | .error e => .error (.schema (some path) e)
    | .ok result => .ok result

/-- Compiles the schema file at a path. -/
def compileFile (t : Tree) (path : String) (options : Options) :
    Except CompileError (Message × String) :=
  match t.read path with
  | .error e => .error (.file e)
  | .ok bytes => compileBytes path bytes options

end Codegen

end WireSchema
