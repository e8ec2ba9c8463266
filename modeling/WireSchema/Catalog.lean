import WireSchema.Schema.Compose
import WireSchema.Schema.Parse
import WireSchema.Text.Lines

/-!
# A catalog of messages

Five messages of the schemas that ship with the generator, each composed from its parts, and the
texts of two of these schemas.
-/

namespace WireSchema.Catalog

/-- A message with one number. -/
def ping : Message :=
  Message.compose "Ping" none [
    ⟨.uint32, "seq", none⟩]

/-- A message with a large array. -/
def blob : Message :=
  Message.compose "Blob" none [
    ⟨.uint16, "chunk", none⟩, ⟨.uint8, "data", some 64⟩]

/-- The schema of `ledCommand`. -/
def ledCommandText : String := Text.joinLines [
  "// Command sent from the controller to an LED node.",
  "package demo.led;",
  "",
  "struct LedCommand \x7b",
  "    uint8_t  ledState;      // 0 = off, 1 = on",
  "    uint16_t rgb[3];",
  "    bool     blink;",
  "    uint32_t periodMs;",
  "\x7d;",
  ""]

/-- A command to a lamp. -/
def ledCommand : Message :=
  Message.compose "LedCommand" (some "demo.led") [
    ⟨.uint8, "ledState", none⟩, ⟨.uint16, "rgb", some 3⟩, ⟨.bool, "blink", none⟩,
    ⟨.uint32, "periodMs", none⟩]

/-- The schema of `ledCommand` describes it. -/
theorem parse_ledCommandText : Message.parse ledCommandText = .ok ledCommand :=
  (congrArg Message.parseChars (Text.toList_joinLines _)).trans (by decide +kernel)

/-- The schema of `writer`. -/
def writerText : String := Text.joinLines [
  "// Fields whose names need escaping in generated code.",
  "package demo.names;",
  "",
  "struct Writer \x7b",
  "    uint8_t  _;",
  "    bool     type;",
  "    uint16_t self[2];",
  "\x7d;",
  ""]

/-- A message whose names need care in generated code. -/
def writer : Message :=
  Message.compose "Writer" (some "demo.names") [
    ⟨.uint8, "_", none⟩, ⟨.bool, "type", none⟩, ⟨.uint16, "self", some 2⟩]

/-- A message with a scalar and an array of every type. -/
def allTypes : Message :=
  Message.compose "AllTypes" (some "demo") [
    ⟨.uint8, "u8Value", none⟩, ⟨.uint8, "u8Array", some 2⟩, ⟨.int8, "i8Value", none⟩,
    ⟨.int8, "i8Array", some 2⟩, ⟨.uint16, "u16Value", none⟩, ⟨.uint16, "u16Array", some 2⟩,
    ⟨.int16, "i16Value", none⟩, ⟨.int16, "i16Array", some 2⟩, ⟨.uint32, "u32Value", none⟩,
    ⟨.uint32, "u32Array", some 2⟩, ⟨.int32, "i32Value", none⟩, ⟨.int32, "i32Array", some 2⟩,
    ⟨.uint64, "u64Value", none⟩, ⟨.uint64, "u64Array", some 2⟩, ⟨.int64, "i64Value", none⟩,
    ⟨.int64, "i64Array", some 2⟩, ⟨.bool, "boolValue", none⟩, ⟨.bool, "boolArray", some 3⟩,
    ⟨.float, "f32Value", none⟩, ⟨.float, "f32Array", some 2⟩, ⟨.double, "f64Value", none⟩,
    ⟨.double, "f64Array", some 2⟩]

/-- The messages of the catalog. -/
def messages : List Message := [ping, blob, ledCommand, writer, allTypes]

/-- The message of the given name. -/
def find? (structName : String) : Option Message :=
  messages.find? fun m ↦ m.structName == structName

end WireSchema.Catalog
