import WireSchema.Text.Quoted

/-!
# What can be wrong with a schema

Each way in which a schema, or the code asked for it, can be refused is a cause that carries the
offending text as it stands. `SchemaError.message` words the diagnostic and quotes that text, so a
diagnostic is one line whatever the schema holds.
-/

namespace WireSchema

/-- Why a schema is refused. -/
inductive SchemaError
  /-- No struct header is found. -/
  | missingHeader
  /-- Something else than one package directive stands before the header. -/
  | unexpectedPreamble (text : String)
  /-- The brace of the header is never closed. -/
  | unterminatedBrace (structName : String)
  /-- No semicolon follows the closing brace. -/
  | missingSemicolon (structName : String)
  /-- Something follows the final semicolon. -/
  | trailingContent (text : String)
  /-- A statement has not the form of a field declaration. -/
  | invalidStatement (text : String)
  /-- An array length does not fit in 32 bits. -/
  | lengthOutOfRange (field length : String)
  /-- A declaration names no scalar type. -/
  | unsupportedType (field typeName : String)
  /-- An array length is zero or has a minus sign. -/
  | nonPositiveLength (field length : String)
  /-- A struct declares nothing. -/
  | noFields (structName : String)
  /-- A name is declared a second time. -/
  | duplicateField (field : String)
  /-- The fields take more bytes than a message may have. -/
  | payloadTooLarge (structName : String) (size limit : Nat)
  /-- Two fields get the same name in generated Rust code. -/
  | nameCollision (first second rustName : String)
  /-- The struct gets no name in generated Rust code. -/
  | unspellableName (structName : String)
  deriving DecidableEq, Repr

namespace SchemaError

open Text

/-- The diagnostic for an error. -/
def message : SchemaError → String
  | missingHeader => "expected 'struct <name> \x7b ... \x7d;'"
  | unexpectedPreamble text =>
    "unexpected content before struct (only optional 'package <name>;' allowed): " ++ quote text
  | unterminatedBrace structName => "unterminated '\x7b' in struct " ++ quote structName
  | missingSemicolon structName =>
    "expected ';' after closing '\x7d' of struct " ++ quote structName
  | trailingContent text =>
    "unexpected trailing content after struct definition: " ++ quote text
  | invalidStatement text => "invalid field declaration: " ++ quote text
  | lengthOutOfRange field length =>
    "invalid field declaration: " ++
      quote (field ++ "[" ++ length ++ "]: array length out of range")
  | unsupportedType field typeName =>
    "unsupported type " ++ quote typeName ++ " for field " ++ quote field
  | nonPositiveLength field length =>
    "array length of field " ++ quote field ++ " must be > 0, found " ++ length
  | noFields structName => "struct " ++ quote structName ++ " has no fields"
  | duplicateField field => "field " ++ quote field ++ " is declared twice"
  | payloadTooLarge structName size limit =>
    "payload of struct " ++ quote structName ++ " is " ++ toString size ++
      " bytes, above the " ++ toString limit ++ " byte limit"
  | nameCollision first second rustName =>
    "fields " ++ quote first ++ " and " ++ quote second ++ " both map to Rust name " ++
      quote rustName
  | unspellableName structName => "struct name " ++ quote structName ++ " has no Rust spelling"

end SchemaError

end WireSchema
