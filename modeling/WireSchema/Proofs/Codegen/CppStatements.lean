import WireSchema.Codegen.CppHeader
import WireSchema.Proofs.Codegen.SizeExpression
import WireSchema.Proofs.Codegen.Statements
import WireSchema.Proofs.Schema.Grammar
import WireSchema.Proofs.Text.Numeral

/-!
# The statements of C++ headers

What is read from the lines of a header: the struct, its hash and its members, and the calls that
encode and decode it. The main statement says that these are the fields of the message, in order,
in each place.
-/

namespace WireSchema.CppHeader

open Codegen Text LineForm Piece

/-- The characters of a name and of the array length behind it. -/
def isDeclaratorChar (c : Char) : Bool := isNameChar c || c == '[' || c == ']'

/-- How an array length is written behind a name. -/
def lengthForm : List Piece := [text "[" rfl, digits, text "]" rfl]

/-- The array length behind a name. -/
def extent? : List Char → Option (Option UInt32)
  | [] => some none
  | s =>
    match runs? lengthForm s with
    | some [length] => (word32? length).map some
    | _ => none

/-- The line that starts the struct. -/
def structForm : StatementForm (Option UInt32) where
  pieces := [spaces 0, text "struct " rfl, name]
  statement?
    | [name] => some (.struct (String.ofList name))
    | _ => none

/-- The line that declares a member. -/
def memberForm : StatementForm (Option UInt32) where
  pieces := [spaces 4, name, text " " rfl, run isDeclaratorChar, text ";" rfl]
  statement?
    | [type, declarator] => do
      let type ← ScalarType.ofName? (String.ofList type)
      let length ← extent? (declarator.dropWhile isNameChar)
      return .member ⟨type, String.ofList (declarator.takeWhile isNameChar), length⟩
    | _ => none

/-- The line of the hash. -/
def hashForm : StatementForm (Option UInt32) where
  pieces := [spaces 4, text "static const uint32_t kMsgHash = 0x" rfl, run isUpperHexDigit,
    text "u;" rfl]
  statement?
    | [digits] => some (.hash digits)
    | _ => none

/-- The line that encodes a scalar. -/
def writeForm : StatementForm (Option UInt32) where
  pieces := [spaces 8, text "if (!umsg_w.write(" rfl, name, text ")) return false;" rfl]
  statement?
    | [name] => some (.encode (String.ofList name) none)
    | _ => none

/-- The line that encodes an array. -/
def writeArrayForm : StatementForm (Option UInt32) where
  pieces := [spaces 8, text "if (!umsg_w.writeArray(" rfl, name, text ", " rfl, digits,
    text "u)) return false;" rfl]
  statement?
    | [name, length] => (word32? length).map fun n ↦ .encode (String.ofList name) (some n)
    | _ => none

/-- The line that decodes a scalar. -/
def readForm : StatementForm (Option UInt32) where
  pieces := [spaces 8, text "if (!umsg_r.read(" rfl, name, text ")) return false;" rfl]
  statement?
    | [name] => some (.decode (String.ofList name) none)
    | _ => none

/-- The line that decodes an array. -/
def readArrayForm : StatementForm (Option UInt32) where
  pieces := [spaces 8, text "if (!umsg_r.readArray(" rfl, name, text ", " rfl, digits,
    text "u)) return false;" rfl]
  statement?
    | [name, length] => (word32? length).map fun n ↦ .decode (String.ofList name) (some n)
    | _ => none

/-- The forms of the statements of a header. -/
def forms : List (StatementForm (Option UInt32)) :=
  [structForm, memberForm, hashForm, writeForm, writeArrayForm, readForm, readArrayForm]

/-- What the code of a header says. -/
def read (code : String) : Reading (Option UInt32) := .ofStatements (statements forms code)

/-- The forms can be told apart. -/
theorem areDistinct_forms : AreDistinct forms where
  isSeparated := by decide
  lacks_feed := by decide
  isCode := by decide
  departs := by decide

/-! ### Members -/

/-- The array length as it is written behind a name. -/
def extent : Option UInt32 → List Char
  | none => []
  | some n => '[' :: ((toString n.toNat).toList ++ [']'])

/-- A written array length is read back. -/
theorem extent?_extent (length : Option UInt32) : extent? (extent length) = some length := by
  cases length with
  | none => rfl
  | some n =>
    have hfits : Fits lengthForm [(toString n.toNat).toList] := ⟨isDigit_of_mem_toString, trivial⟩
    have hruns : runs? lengthForm (extent (some n)) = some [(toString n.toNat).toList] :=
      runs?_fill (by decide) hfits
    simp only [extent] at hruns ⊢
    rw [extent?, hruns]
    · simp only [word32?_toString, Option.map_some]
    · simp

/-- A name ends before the array length. -/
theorem stops_extent (length : Option UInt32) : Stops isNameChar (extent length) := by
  cases length with
  | none => exact stops_nil _
  | some n => exact stops_cons.mpr (by decide)

private theorem isDeclaratorChar_of_mem_extent (length : Option UInt32) :
    ∀ c ∈ extent length, isDeclaratorChar c = true := by
  cases length with
  | none => simp [extent]
  | some n =>
    simp only [extent, List.forall_mem_cons, List.forall_mem_append]
    refine ⟨by decide, fun c hc ↦ ?_, by decide, List.forall_mem_nil _⟩
    simp [isDeclaratorChar, isNameChar_of_isDigit (isDigit_of_mem_toString c hc)]

variable {f : Field} (hname : ∀ c ∈ f.name.toList, isNameChar c = true)

/-- The characters of the declaration of a field. -/
theorem toList_declaration (f : Field) : (declaration f).toList =
    fill memberForm.pieces [f.type.name.toList, f.name.toList ++ extent f.length] := by
  have hfill (type declarator : List Char) : fill memberForm.pieces [type, declarator] =
      [' ', ' ', ' ', ' '] ++ (type ++ (' ' :: (declarator ++ [';']))) := rfl
  unfold declaration
  split
  · next h => simp [hfill, extent, h]
  · next n h => simp [hfill, extent, h]

include hname

/-- The declaration of a field says its type, its name and its length. -/
theorem reads_declaration : Reads forms [declaration f] [.member f] := by
  have hform : memberForm ∈ forms := by simp only [forms, List.mem_cons, true_or, or_true]
  have hdeclarator : ∀ c ∈ f.name.toList ++ extent f.length, isDeclaratorChar c = true := by
    rw [List.forall_mem_append]
    refine ⟨fun c hc ↦ ?_, isDeclaratorChar_of_mem_extent f.length⟩
    simp [isDeclaratorChar, hname c hc]
  refine areDistinct_forms.reads hform _ (toList_declaration f)
    ⟨isNameChar_of_mem_name (Grammar.isName_typeName f.type), hdeclarator, trivial⟩ ?_
  simp [memberForm, dropWhile_append_of_stops hname (stops_extent f.length),
    takeWhile_append_of_stops hname (stops_extent f.length), extent?_extent,
    ScalarType.ofName?_name]

/-- The line that encodes a field says its name and its length. -/
theorem reads_encoder : Reads forms [encoder f] [.encode f.name f.length] := by
  unfold encoder
  split
  · next h =>
    have hform : writeForm ∈ forms := by simp only [forms, List.mem_cons, true_or, or_true]
    exact areDistinct_forms.reads_run hform rfl rfl rfl hname (by simp [writeForm, h])
  · next n h =>
    have hform : writeArrayForm ∈ forms := by simp only [forms, List.mem_cons, true_or, or_true]
    refine areDistinct_forms.reads_runs hform rfl rfl rfl rfl hname isDigit_of_mem_toString ?_
    simp only [writeArrayForm, word32?_toString, Option.map_some, String.ofList_toList, h]

/-- The line that decodes a field says its name and its length. -/
theorem reads_decoder : Reads forms [decoder f] [.decode f.name f.length] := by
  unfold decoder
  split
  · next h =>
    have hform : readForm ∈ forms := by simp only [forms, List.mem_cons, true_or, or_true]
    exact areDistinct_forms.reads_run hform rfl rfl rfl hname (by simp [readForm, h])
  · next n h =>
    have hform : readArrayForm ∈ forms := by simp only [forms, List.mem_cons, true_or, or_true]
    refine areDistinct_forms.reads_runs hform rfl rfl rfl rfl hname isDigit_of_mem_toString ?_
    simp only [readArrayForm, word32?_toString, Option.map_some, String.ofList_toList, h]

omit hname

/-! ### The parts of a header -/

/-- The line that starts the struct says its name. -/
theorem reads_struct {structName : String} (h : ∀ c ∈ structName.toList, isNameChar c = true) :
    Reads forms ["struct " ++ structName] [.struct structName] := by
  have hform : structForm ∈ forms := by simp only [forms, List.mem_cons, true_or]
  refine areDistinct_forms.reads hform [structName.toList] ?_ ⟨h, trivial⟩ (by simp [structForm])
  simp [structForm, spaces, text, name, fill]

/-- The line of the hash says its digits. -/
theorem reads_hash (hash : UInt32) :
    Reads forms ["    static const uint32_t kMsgHash = 0x" ++
      String.ofList (upperHex 8 hash.toNat) ++ "u;"] [.hash (upperHex 8 hash.toNat)] := by
  have hform : hashForm ∈ forms := by simp only [forms, List.mem_cons, true_or, or_true]
  refine areDistinct_forms.reads_run hform rfl rfl rfl ?_ (by simp [hashForm])
  rw [String.toList_ofList]
  exact isUpperHexDigit_of_mem_upperHex

/-- The line of the payload size has no statement. -/
theorem reads_size (fields : List Field) :
    Reads forms ["    static const size_t kPayloadSize = " ++ sizeExpression fields ++ ";"] [] := by
  have hsize : '\n' ∉ (sizeExpression fields).toList := by
    rw [SizeDialect.toList_cppExpression]
    exact SizeDialect.cpp.not_mem_expression _ (by decide) (by decide) (by decide) (by decide)
  rw [String.append_assoc]
  exact reads_opening rfl (not_mem_toList_append hsize (by decide))

/-- What the header of a message says. -/
def reading (m : Message) : Reading (Option UInt32) where
  structNames := [m.structName]
  members := m.fields
  hashes := [upperHex 8 m.hash.toNat]
  initials := []
  encoded := m.fields.map fun f ↦ (f.name, f.length)
  decoded := m.fields.map fun f ↦ (f.name, f.length)

/-- A header says what its message says, whatever its banner says. -/
theorem read_render {m : Message} (hstruct : ∀ c ∈ m.structName.toList, isNameChar c = true)
    (hfields : ∀ f ∈ m.fields, ∀ c ∈ f.name.toList, isNameChar c = true)
    (sourceName : Option String) : read (render m sourceName) = reading m := by
  have hdeclare := Reads.map fun f hf ↦ reads_declaration (hfields f hf)
  have hencode := Reads.map fun f hf ↦ reads_encoder (hfields f hf)
  have hdecode := Reads.map fun f hf ↦ reads_decoder (hfields f hf)
  have hlines : ∃ after, Reads forms after ([.struct m.structName] ++ (m.fields.map .member ++
      ([.hash (upperHex 8 m.hash.toNat)] ++ (m.fields.map (fun f ↦ .encode f.name f.length) ++
        m.fields.map fun f ↦ .decode f.name f.length)))) ∧ lines m sourceName =
      (["#pragma once", "#include <stddef.h>", "#include <stdint.h>", ""] ++ banner sourceName ++
        [""]) ++ "#include \"marshalling.hpp\"" :: after := by
    simp only [lines, List.append_assoc, List.cons_append, List.nil_append]
    refine ⟨_, ?_, rfl⟩
    refine .cons (reads_fixed rfl) ((reads_struct hstruct).append ?_)
    refine .cons (reads_fixed rfl) (hdeclare.append ?_)
    refine .cons (reads_fixed rfl) ((reads_hash m.hash).append ?_)
    refine .cons (reads_size m.fields) ?_
    iterate 6 refine .cons (reads_fixed rfl) ?_
    refine hencode.append ?_
    iterate 8 refine .cons (reads_fixed rfl) ?_
    refine hdecode.append_silent ?_
    iterate 4 refine .cons (reads_fixed rfl) ?_
    exact .nil
  obtain ⟨after, hreads, hall⟩ := hlines
  rw [read, render, hreads.statements_joinLines hall (by decide) (by decide)]
  simp only [Reading.ofStatements, reading, List.filterMap_append, List.filterMap_map,
    Function.comp_def, List.filterMap_cons, List.filterMap_nil]
  simp

end WireSchema.CppHeader
