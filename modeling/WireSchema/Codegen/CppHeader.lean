import WireSchema.Codegen.Banner
import WireSchema.Schema.Message
import WireSchema.Text.Lines
import WireSchema.Text.Numeral

/-!
# Generated C++ headers

A message becomes a self-contained C++11 header: a struct with the fields under their schema names,
its constants, and `encode` and `decode`. The local names of the two functions start with `umsg_`,
so that fields with everyday names are not hidden by them.
-/

namespace WireSchema.CppHeader

open Codegen Text

/-- The line that declares a field. -/
def declaration (f : Field) : String :=
  match f.length with
  | none => "    " ++ f.type.name ++ " " ++ f.name ++ ";"
  | some n => "    " ++ f.type.name ++ " " ++ f.name ++ "[" ++ toString n.toNat ++ "];"

/-- The line that encodes a field. -/
def encoder (f : Field) : String :=
  match f.length with
  | none => "        if (!umsg_w.write(" ++ f.name ++ ")) return false;"
  | some n =>
    "        if (!umsg_w.writeArray(" ++ f.name ++ ", " ++ toString n.toNat ++
      "u)) return false;"

/-- The line that decodes a field. -/
def decoder (f : Field) : String :=
  match f.length with
  | none => "        if (!umsg_r.read(" ++ f.name ++ ")) return false;"
  | some n =>
    "        if (!umsg_r.readArray(" ++ f.name ++ ", " ++ toString n.toNat ++ "u)) return false;"

/-- The term of a field in the sum that is the payload size. -/
def sizeTerm (f : Field) : String :=
  let scalar := "sizeof(" ++ f.type.name ++ ")"
  match f.length with
  | none => scalar
  | some n => "(" ++ scalar ++ " * " ++ toString n.toNat ++ "u)"

/-- The payload size as a sum over the fields. -/
def sizeExpression (fields : List Field) : String :=
  if fields.isEmpty then "0u" else " + ".intercalate (fields.map sizeTerm)

/-- The lines of the header. -/
def lines (m : Message) (sourceName : Option String) : List String :=
  ["#pragma once", "#include <stddef.h>", "#include <stdint.h>", ""] ++
    banner sourceName ++
    ["", "#include \"marshalling.hpp\"", "", "struct " ++ m.structName, "\x7b"] ++
    m.fields.map declaration ++
    ["",
      "    static const uint32_t kMsgHash = 0x" ++ String.ofList (upperHex 8 m.hash.toNat) ++ "u;",
      "    static const size_t kPayloadSize = " ++ sizeExpression m.fields ++ ";",
      "",
      "    bool encode(umsg::bufferSpan& umsg_payload) const",
      "    \x7b",
      "        if (!umsg_payload.data) return false;",
      "        const size_t umsg_cap = umsg_payload.length;",
      "        umsg::Writer umsg_w(umsg_payload);"] ++
    m.fields.map encoder ++
    ["        if (umsg_w.bytesWritten() > umsg_cap) return false;",
      "        umsg_payload.length = umsg_w.bytesWritten();",
      "        return true;",
      "    \x7d",
      "",
      "    bool decode(umsg::bufferSpan umsg_payload)",
      "    \x7b",
      "        umsg::Reader umsg_r(umsg_payload);"] ++
    m.fields.map decoder ++
    ["        return umsg_r.fullyConsumed();", "    \x7d", "\x7d;", ""]

/-- The header of a message. -/
def render (m : Message) (sourceName : Option String) : String := joinLines (lines m sourceName)

end WireSchema.CppHeader
