import WireSchema.Codegen.Banner
import WireSchema.Codegen.Naming
import WireSchema.Schema.Clash
import WireSchema.Schema.Error
import WireSchema.Schema.Message
import WireSchema.Text.Lines
import WireSchema.Text.Numeral

/-!
# Generated Rust modules

A message becomes a Rust module body: a struct, its constants with `encode` and `decode`, its
default value, and its implementation of the runtime's payload trait. Every item outside the module
is written with its absolute path, and there are no inner attributes, so the text may be included
anywhere, whatever the struct is called. It fails only where the names of the message have no
usable form: the struct name has no letter or digit, or two field names become one.
-/

namespace WireSchema.RustModule

open Codegen Text

/-- The name of a scalar type. -/
def scalarName : ScalarType → String
  | .uint8 => "u8"
  | .int8 => "i8"
  | .uint16 => "u16"
  | .int16 => "i16"
  | .uint32 => "u32"
  | .int32 => "i32"
  | .uint64 => "u64"
  | .int64 => "i64"
  | .bool => "bool"
  | .float => "f32"
  | .double => "f64"

/-- The literal of the zero of a scalar type. -/
def zeroLiteral : ScalarType → String
  | .bool => "false"
  | .float | .double => "0.0"
  | _ => "0"

/-- A field with the name it has in the generated code. -/
structure Member where
  name : String
  field : Field
  deriving DecidableEq, Repr

namespace Member

/-- A text made from one for the scalar: `[scalar; length]` for arrays. -/
def arrayOf (m : Member) (scalar : String) : String :=
  match m.field.length with
  | none => scalar
  | some n => "[" ++ scalar ++ "; " ++ toString n.toNat ++ "]"

/-- The line that declares the member. -/
def declaration (m : Member) : String :=
  "    pub " ++ m.name ++ ": " ++ m.arrayOf (scalarName m.field.type) ++ ","

/-- The line that sets the member of a default value. -/
def initializer (m : Member) : String :=
  "            " ++ m.name ++ ": " ++ m.arrayOf (zeroLiteral m.field.type) ++ ","

/-- The line that encodes the member. -/
def encoder (m : Member) : String :=
  match m.field.length with
  | none => "        w.write(self." ++ m.name ++ ")?;"
  | some _ => "        w.write_array(&self." ++ m.name ++ ")?;"

/-- The line that decodes the member. -/
def decoder (m : Member) : String :=
  match m.field.length with
  | none => "        self." ++ m.name ++ " = r.read()?;"
  | some _ => "        r.read_array(&mut self." ++ m.name ++ ")?;"

end Member

/-- The term of a field in the sum that is the payload size. -/
def sizeTerm (f : Field) : String :=
  let scalar := "::core::mem::size_of::<" ++ scalarName f.type ++ ">()"
  match f.length with
  | none => scalar
  | some n => "(" ++ scalar ++ " * " ++ toString n.toNat ++ ")"

/-- The payload size as a sum over the fields. -/
def sizeExpression (fields : List Field) : String :=
  if fields.isEmpty then "0" else " + ".intercalate (fields.map sizeTerm)

/-- The lines of the struct, with an empty line at the end. -/
def structLines (name : String) (members : List Member) : List String :=
  ["#[derive(Debug, Clone, Copy, PartialEq)]", "pub struct " ++ name ++ " \x7b"] ++
    members.map Member.declaration ++ ["\x7d", ""]

/-- The lines of the constants and of `encode` and `decode`, with an empty line at the end. -/
def implLines (name : String) (m : Message) (members : List Member) : List String :=
  ["impl " ++ name ++ " \x7b",
    "    pub const MSG_HASH: u32 = 0x" ++ String.ofList (upperHex 8 m.hash.toNat) ++ ";",
    "    pub const PAYLOAD_SIZE: usize = " ++ sizeExpression m.fields ++ ";",
    "",
    "    pub fn encode(&self, payload: &mut ::umsg_marshal::BufferSpan<'_>) -> " ++
      "::core::result::Result<(), ::umsg_marshal::MarshalError> \x7b",
    "        let capacity = payload.len();",
    "        let mut w = ::umsg_marshal::Writer::new(payload.as_mut_slice());"] ++
    members.map Member.encoder ++
    ["        let written = w.bytes_written();",
      "        if written > capacity \x7b",
      "            return ::core::result::Result::Err(::umsg_marshal::MarshalError::Overflow " ++
      "\x7b needed: written, capacity \x7d);",
      "        \x7d",
      "        payload.set_len(written);",
      "        ::core::result::Result::Ok(())",
      "    \x7d",
      "",
      "    pub fn decode(&mut self, payload: &[u8]) -> " ++
      "::core::result::Result<(), ::umsg_marshal::MarshalError> \x7b",
      "        let mut r = ::umsg_marshal::Reader::new(payload);"] ++
    members.map Member.decoder ++
    ["        r.finish()", "    \x7d", "\x7d", ""]

/-- The lines of the default value, with an empty line at the end. -/
def defaultLines (name : String) (members : List Member) : List String :=
  ["impl ::core::default::Default for " ++ name ++ " \x7b",
    "    fn default() -> Self \x7b",
    "        Self \x7b"] ++
    members.map Member.initializer ++
    ["        \x7d", "    \x7d", "\x7d", ""]

/-- The lines of the payload trait, with an empty line at the end. -/
def payloadLines (name : String) : List String :=
  ["impl ::umsg_marshal::Payload for " ++ name ++ " \x7b",
    "    const MSG_HASH: u32 = " ++ name ++ "::MSG_HASH;",
    "    const PAYLOAD_SIZE: usize = " ++ name ++ "::PAYLOAD_SIZE;",
    "",
    "    fn encode(&self, payload: &mut ::umsg_marshal::BufferSpan<'_>) -> " ++
      "::core::result::Result<(), ::umsg_marshal::MarshalError> \x7b",
    "        " ++ name ++ "::encode(self, payload)",
    "    \x7d",
    "",
    "    fn decode(&mut self, payload: &[u8]) -> " ++
      "::core::result::Result<(), ::umsg_marshal::MarshalError> \x7b",
    "        " ++ name ++ "::decode(self, payload)",
    "    \x7d",
    "\x7d",
    ""]

/-- The fields of a message with their names in the generated code. -/
def members (m : Message) : List Member :=
  m.fields.map fun f ↦ ⟨Naming.fieldName f.name, f⟩

/-- The name of the generated struct, if the message has one. -/
def structName? (m : Message) : Except SchemaError String :=
  let name := Naming.structName m.structName
  if name.isEmpty then .error (.unspellableName m.structName) else .ok name

/-- The members of the generated struct, if their names are different. -/
def members? (m : Message) : Except SchemaError (List Member) :=
  match firstClash? Member.name (members m) with
  | some (first, second) =>
    .error (.nameCollision first.field.name second.field.name second.name)
  | none => .ok (members m)

/-- The lines of the whole module. -/
def lines (m : Message) (sourceName : Option String) (name : String)
    (members : List Member) : List String :=
  banner sourceName ++ [""] ++ structLines name members ++ implLines name m members ++
    defaultLines name members ++ payloadLines name

/-- The module of a message. -/
def render (m : Message) (sourceName : Option String) : Except SchemaError String := do
  let name ← structName? m
  let members ← members? m
  return joinLines (lines m sourceName name members)

end WireSchema.RustModule
