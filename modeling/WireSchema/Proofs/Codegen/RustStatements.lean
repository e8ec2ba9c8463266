import WireSchema.Codegen.RustModule
import WireSchema.Proofs.Codegen.Identifiers
import WireSchema.Proofs.Codegen.SizeExpression
import WireSchema.Proofs.Codegen.Statements
import WireSchema.Proofs.Text.Numeral

/-!
# The statements of Rust modules

What is read from the lines of a module: the struct and its members, the hash, the calls that encode
and decode each member, and the default value. The lines between them have no statement, whatever
names are in them: the name of a struct never starts like a local variable of the two functions. The
main statement says that a module says what its message says, in the order of the fields.
-/

namespace WireSchema.RustModule

open Codegen Text LineForm Piece

/-- The characters of a type, of a literal, and of an array of one of them. -/
def isExtentChar (c : Char) : Bool :=
  isDottedChar c || c == '[' || c == ';' || c == ' ' || c == ']'

/-- How arrays are written. -/
def arrayForm : List Piece := [text "[" rfl, run isDottedChar, text "; " rfl, digits, text "]" rfl]

/-- The text for the scalar and the array length in a text made from one for the scalar. -/
def extent? (s : List Char) : Option (String × Option UInt32) :=
  match runs? arrayForm s with
  | some [scalar, length] => (word32? length).map fun n ↦ (String.ofList scalar, some n)
  | _ => if s.all isDottedChar then some (String.ofList s, none) else none

/-- The scalar type of the given name. -/
def typeOf? (name : String) : Option ScalarType :=
  ScalarType.all.find? fun t ↦ scalarName t == name

/-- The line that starts the struct. -/
def structForm : StatementForm Bool where
  pieces := [spaces 0, text "pub struct " rfl, name, text " \x7b" rfl]
  statement?
    | [name] => some (.struct (String.ofList name))
    | _ => none

/-- The line that declares a member. -/
def memberForm : StatementForm Bool where
  pieces := [spaces 4, text "pub " rfl, name, text ": " rfl, run isExtentChar, text "," rfl]
  statement?
    | [name, extent] => do
      let (scalar, length) ← extent? extent
      let type ← typeOf? scalar
      return .member ⟨type, String.ofList name, length⟩
    | _ => none

/-- The line of the hash. -/
def hashForm : StatementForm Bool where
  pieces := [spaces 4, text "pub const MSG_HASH: u32 = 0x" rfl, run isUpperHexDigit, text ";" rfl]
  statement?
    | [digits] => some (.hash digits)
    | _ => none

/-- The line that encodes a scalar. -/
def writeForm : StatementForm Bool where
  pieces := [spaces 8, text "w.write(self." rfl, name, text ")?;" rfl]
  statement?
    | [name] => some (.encode (String.ofList name) false)
    | _ => none

/-- The line that encodes an array. -/
def writeArrayForm : StatementForm Bool where
  pieces := [spaces 8, text "w.write_array(&self." rfl, name, text ")?;" rfl]
  statement?
    | [name] => some (.encode (String.ofList name) true)
    | _ => none

/-- The line that decodes a scalar. -/
def readForm : StatementForm Bool where
  pieces := [spaces 8, text "self." rfl, name, text " = r.read()?;" rfl]
  statement?
    | [name] => some (.decode (String.ofList name) false)
    | _ => none

/-- The line that decodes an array. -/
def readArrayForm : StatementForm Bool where
  pieces := [spaces 8, text "r.read_array(&mut self." rfl, name, text ")?;" rfl]
  statement?
    | [name] => some (.decode (String.ofList name) true)
    | _ => none

/-- The line that sets a member of the default value. -/
def initialForm : StatementForm Bool where
  pieces := [spaces 12, text "" rfl, name, text ": " rfl, run isExtentChar, text "," rfl]
  statement?
    | [name, extent] => do
      let (zero, length) ← extent? extent
      return .initial (String.ofList name) zero length
    | _ => none

/-- The forms of the statements of a module. -/
def forms : List (StatementForm Bool) :=
  [structForm, memberForm, hashForm, writeForm, writeArrayForm, readForm, readArrayForm,
    initialForm]

/-- What the code of a module says. -/
def read (code : String) : Reading Bool := .ofStatements (statements forms code)

/-- The forms can be told apart. -/
theorem areDistinct_forms : AreDistinct forms where
  isSeparated := by decide
  lacks_feed := by decide
  isCode := by decide
  departs := by decide

/-! ### Members -/

/-- The name of a scalar type is looked up to that type. -/
theorem typeOf?_scalarName (t : ScalarType) : typeOf? (scalarName t) = some t := by
  cases t <;> decide

private theorem isDottedChar_of_mem_scalarName (t : ScalarType) :
    ∀ c ∈ (scalarName t).toList, isDottedChar c = true := by
  apply List.all_eq_true.mp
  cases t <;> decide

private theorem isDottedChar_of_mem_zeroLiteral (t : ScalarType) :
    ∀ c ∈ (zeroLiteral t).toList, isDottedChar c = true := by
  apply List.all_eq_true.mp
  cases t <;> decide

namespace Member

/-- The field that the code declares for a member. -/
def declared (x : Member) : Field := ⟨x.field.type, x.name, x.field.length⟩

variable {x : Member}

/-- A text made from one for the scalar is read as that text and the array length. -/
theorem extent?_arrayOf {scalar : String} (h : ∀ c ∈ scalar.toList, isDottedChar c = true) :
    extent? (x.arrayOf scalar).toList = some (scalar, x.field.length) := by
  unfold arrayOf
  split
  · next hlength =>
    have hruns : runs? arrayForm scalar.toList = none := by
      have hopen : '[' ∉ scalar.toList := fun hm ↦ absurd (h '[' hm) (by decide)
      have hskip : skipChars? ['['] scalar.toList = none := by
        rw [Option.eq_none_iff_forall_ne_some]
        intro r hr
        rw [← skipChars?_append hr] at hopen
        exact hopen List.mem_cons_self
      rw [arrayForm, text, runs?, hskip, Option.bind_none]
    rw [extent?, hruns]
    simp only [List.all_eq_true.mpr h, if_true, String.ofList_toList, hlength]
  · next n hlength =>
    have hline : ("[" ++ scalar ++ "; " ++ toString n.toNat ++ "]").toList =
        fill arrayForm [scalar.toList, (toString n.toNat).toList] := by
      simp [arrayForm, text, digits, fill]
    have hfits : Fits arrayForm [scalar.toList, (toString n.toNat).toList] :=
      ⟨h, isDigit_of_mem_toString, trivial⟩
    rw [extent?, hline, runs?_fill (by decide) hfits]
    simp only [word32?_toString, Option.map_some, String.ofList_toList, hlength]

/-- A text made from one for the scalar has the characters of such texts. -/
theorem isExtentChar_of_mem_arrayOf {scalar : String}
    (h : ∀ c ∈ scalar.toList, isDottedChar c = true) :
    ∀ c ∈ (x.arrayOf scalar).toList, isExtentChar c = true := by
  have hscalar : ∀ c ∈ scalar.toList, isExtentChar c = true := by
    intro c hc
    simp [isExtentChar, h c hc]
  unfold arrayOf
  split
  · exact hscalar
  · simp only [String.toList_append, List.forall_mem_append]
    have hopen : ∀ c ∈ "[".toList, isExtentChar c = true := List.all_eq_true.mp (by decide)
    have hmiddle : ∀ c ∈ "; ".toList, isExtentChar c = true := List.all_eq_true.mp (by decide)
    have hclose : ∀ c ∈ "]".toList, isExtentChar c = true := List.all_eq_true.mp (by decide)
    refine ⟨⟨⟨⟨hopen, hscalar⟩, hmiddle⟩, fun c hc ↦ ?_⟩, hclose⟩
    have hdigit := isNameChar_of_isDigit (isDigit_of_mem_toString c hc)
    simp [isExtentChar, isDottedChar_of_isNameChar hdigit]

variable (hname : ∀ c ∈ x.name.toList, isNameChar c = true)
include hname

/-- The declaration of a member says its type, its name and its length. -/
theorem reads_declaration : Reads forms [x.declaration] [.member x.declared] := by
  have hform : memberForm ∈ forms := by simp only [forms, List.mem_cons, true_or, or_true]
  have hdotted := isDottedChar_of_mem_scalarName x.field.type
  refine areDistinct_forms.reads_runs hform rfl rfl rfl rfl hname
    (isExtentChar_of_mem_arrayOf hdotted) ?_
  simp [memberForm, extent?_arrayOf hdotted, typeOf?_scalarName, declared]

/-- The initializer of a member says its name, its zero and its length. -/
theorem reads_initializer : Reads forms [x.initializer]
    [.initial x.name (zeroLiteral x.field.type) x.field.length] := by
  have hform : initialForm ∈ forms := by simp only [forms, List.mem_cons, true_or, or_true]
  have hdotted := isDottedChar_of_mem_zeroLiteral x.field.type
  refine areDistinct_forms.reads_runs hform rfl rfl rfl rfl hname
    (isExtentChar_of_mem_arrayOf hdotted) ?_
  simp [initialForm, extent?_arrayOf hdotted]

/-- The line that encodes a member says its name, and whether it is an array. -/
theorem reads_encoder : Reads forms [x.encoder] [.encode x.name x.field.length.isSome] := by
  unfold encoder
  split
  · next h =>
    have hform : writeForm ∈ forms := by simp only [forms, List.mem_cons, true_or, or_true]
    exact areDistinct_forms.reads_run hform rfl rfl rfl hname (by simp [writeForm, h])
  · next h =>
    have hform : writeArrayForm ∈ forms := by simp only [forms, List.mem_cons, true_or, or_true]
    exact areDistinct_forms.reads_run hform rfl rfl rfl hname (by simp [writeArrayForm, h])

/-- The line that decodes a member says its name, and whether it is an array. -/
theorem reads_decoder : Reads forms [x.decoder] [.decode x.name x.field.length.isSome] := by
  unfold decoder
  split
  · next h =>
    have hform : readForm ∈ forms := by simp only [forms, List.mem_cons, true_or, or_true]
    exact areDistinct_forms.reads_run hform rfl rfl rfl hname (by simp [readForm, h])
  · next h =>
    have hform : readArrayForm ∈ forms := by simp only [forms, List.mem_cons, true_or, or_true]
    exact areDistinct_forms.reads_run hform rfl rfl rfl hname (by simp [readArrayForm, h])

end Member

/-! ### The parts of a module -/

/-- What matters about the name of a struct where it stands in a line: it is not empty, has name
characters only, and does not start like a local variable. -/
structure IsStructName (name : String) : Prop where
  ne_empty : name ≠ ""
  nameChars : ∀ c ∈ name.toList, isNameChar c = true
  isLower_head : ∀ c ∈ name.toList.head?, c.isLower = false

/-- The struct name of a message, if there is one, is such a name. -/
theorem isStructName_structName {name : String} (h : isName name.toList = true)
    (hne : Naming.structName name ≠ "") : IsStructName (Naming.structName name) :=
  ⟨hne, Naming.isNameChar_of_mem_structName h, Naming.isLower_head?_structName h⟩

/-- The line of the hash says its digits. -/
theorem reads_hash (hash : UInt32) :
    Reads forms ["    pub const MSG_HASH: u32 = 0x" ++ String.ofList (upperHex 8 hash.toNat) ++ ";"]
      [.hash (upperHex 8 hash.toNat)] := by
  have hform : hashForm ∈ forms := by simp only [forms, List.mem_cons, true_or, or_true]
  refine areDistinct_forms.reads_run hform rfl rfl rfl ?_ (by simp [hashForm])
  rw [String.toList_ofList]
  exact isUpperHexDigit_of_mem_upperHex

private theorem isSilentOpening_spaces : ∀ n < 0x80, isNameChar (Char.ofNat n) = true →
    (Char.ofNat n).isLower = false →
      isSilentOpening forms (List.replicate 8 ' ' ++ [Char.ofNat n]) = true := by
  decide

namespace IsStructName

variable {name : String} (hname : IsStructName name)
include hname

private theorem not_feed_mem : '\n' ∉ name.toList :=
  fun hm ↦ absurd (hname.nameChars _ hm) (by decide)

/-- The line that starts the struct says its name. -/
theorem reads_struct : Reads forms ["pub struct " ++ name ++ " \x7b"] [.struct name] := by
  have hform : structForm ∈ forms := by simp only [forms, List.mem_cons, true_or]
  exact areDistinct_forms.reads_run hform rfl rfl rfl hname.nameChars (by simp [structForm])

/-- A line that starts with the name of the struct has no statement: the lines of statements start
with a local variable. -/
theorem reads_call {rest : String} (hfeed : '\n' ∉ rest.toList) :
    Reads forms ["        " ++ name ++ rest] [] := by
  have hhead : ∃ c r, name.toList = c :: r :=
    List.exists_cons_of_ne_nil fun h ↦ hname.ne_empty (String.toList_inj.mp h)
  obtain ⟨c, r, hcr⟩ := hhead
  have hopening : isSilentOpening forms (List.replicate 8 ' ' ++ [c]) = true := by
    refine forall_isNameChar (p := fun c ↦ c.isLower = false →
      isSilentOpening forms (List.replicate 8 ' ' ++ [c]) = true) isSilentOpening_spaces
      (hname.nameChars c ?_) (hname.isLower_head c ?_)
    · rw [hcr]
      exact List.mem_cons_self
    · rw [hcr]
      exact rfl
  have hline : "        " ++ name ++ rest =
      String.ofList (List.replicate 8 ' ' ++ [c]) ++ (String.ofList r ++ rest) := by
    rw [← String.toList_inj, String.toList_append, String.toList_append, String.toList_append,
      String.toList_append, String.toList_ofList, String.toList_ofList, String.toList_ofList, hcr]
    rfl
  have hr : '\n' ∉ r := fun hm ↦
    hname.not_feed_mem (by rw [hcr]; exact List.mem_cons_of_mem _ hm)
  rw [hline]
  exact reads_opening hopening (not_mem_toList_append (not_mem_toList_ofList hr) hfeed)

/-- The lines of the payload trait have no statements. -/
theorem reads_payloadLines : Reads forms (payloadLines name) [] := by
  have hfeed := hname.not_feed_mem
  unfold payloadLines
  simp only [String.append_assoc]
  refine .cons (reads_opening rfl (not_mem_toList_append hfeed (by decide))) ?_
  refine .cons (reads_opening rfl (not_mem_toList_append hfeed (by decide))) ?_
  refine .cons (reads_opening rfl (not_mem_toList_append hfeed (by decide))) ?_
  refine .cons (reads_fixed rfl) ?_
  refine .cons (reads_opening rfl (not_mem_toList_ofList (by decide))) ?_
  refine .cons (hname.reads_call (not_mem_toList_ofList (by decide))) ?_
  iterate 2 refine .cons (reads_fixed rfl) ?_
  refine .cons (reads_opening rfl (not_mem_toList_ofList (by decide))) ?_
  refine .cons (hname.reads_call (not_mem_toList_ofList (by decide))) ?_
  iterate 3 refine .cons (reads_fixed rfl) ?_
  exact .nil

variable {members : List Member}
  (hmembers : ∀ x ∈ members, ∀ c ∈ x.name.toList, isNameChar c = true)
include hmembers

/-- The lines of the default value say how each member is set. -/
theorem reads_defaultLines :
    Reads forms (defaultLines name members)
      (members.map fun x ↦ .initial x.name (zeroLiteral x.field.type) x.field.length) := by
  have hbefore : Reads forms ["impl ::core::default::Default for " ++ name ++ " \x7b",
      "    fn default() -> Self \x7b", "        Self \x7b"] [] := by
    simp only [String.append_assoc]
    refine .cons (reads_opening rfl
      (not_mem_toList_append hname.not_feed_mem (by decide))) ?_
    iterate 2 refine .cons (reads_fixed rfl) ?_
    exact .nil
  have hafter : Reads forms ["        \x7d", "    \x7d", "\x7d", ""] [] := by
    iterate 4 refine .cons (reads_fixed rfl) ?_
    exact .nil
  have hmap := Reads.map fun x hx ↦ Member.reads_initializer (hmembers x hx)
  exact (hbefore.silent_append hmap).append_silent hafter

/-- The lines of the constants and of the two functions say the hash, and what is encoded and
decoded. -/
theorem reads_implLines (m : Message) :
    Reads forms (implLines name m members)
      ([.hash (upperHex 8 m.hash.toNat)] ++
        members.map (fun x ↦ .encode x.name x.field.length.isSome) ++
        members.map (fun x ↦ .decode x.name x.field.length.isSome)) := by
  have hencode := Reads.map fun x hx ↦ Member.reads_encoder (hmembers x hx)
  have hdecode := Reads.map fun x hx ↦ Member.reads_decoder (hmembers x hx)
  have hsize : '\n' ∉ (sizeExpression m.fields).toList := by
    rw [SizeDialect.toList_rustExpression]
    exact SizeDialect.rust.not_mem_expression _ (by decide) (by decide) (by decide) (by decide)
  unfold implLines
  refine .append_silent (.append (.append_silent (.append ?before hencode) ?between) hdecode) ?after
  case before =>
    refine .cons ?_ ((reads_hash m.hash).append_silent (.cons ?_ ?_))
    · rw [String.append_assoc]
      exact reads_opening rfl (not_mem_toList_append hname.not_feed_mem (by decide))
    · rw [String.append_assoc]
      exact reads_opening rfl (not_mem_toList_append hsize (by decide))
    · refine .cons (reads_fixed rfl) ?_
      refine .cons (reads_opening rfl (not_mem_toList_ofList (by decide))) ?_
      iterate 2 refine .cons (reads_fixed rfl) ?_
      exact .nil
  case between =>
    iterate 2 refine .cons (reads_fixed rfl) ?_
    refine .cons (reads_opening rfl (not_mem_toList_ofList (by decide))) ?_
    iterate 5 refine .cons (reads_fixed rfl) ?_
    refine .cons (reads_opening rfl (not_mem_toList_ofList (by decide))) ?_
    exact .cons (reads_fixed rfl) .nil
  case after =>
    iterate 4 refine .cons (reads_fixed rfl) ?_
    exact .nil

end IsStructName

/-- What a module with the given struct name, hash and members says. -/
def reading (name : String) (hash : UInt32) (members : List Member) : Reading Bool where
  structNames := [name]
  members := members.map Member.declared
  hashes := [upperHex 8 hash.toNat]
  initials := members.map fun x ↦ (x.name, zeroLiteral x.field.type, x.field.length)
  encoded := members.map fun x ↦ (x.name, x.field.length.isSome)
  decoded := members.map fun x ↦ (x.name, x.field.length.isSome)

/-- The lines of a module behind the directive before its struct. -/
def itemLines (name : String) (m : Message) (members : List Member) : List String :=
  ["pub struct " ++ name ++ " \x7b"] ++ members.map Member.declaration ++ ["\x7d", ""] ++
    implLines name m members ++ defaultLines name members ++ payloadLines name

/-- A module is its banner, the directive and the lines behind it. -/
theorem lines_eq (name : String) (m : Message) (members : List Member)
    (sourceName : Option String) : lines m sourceName name members = (banner sourceName ++ [""]) ++
      "#[derive(Debug, Clone, Copy, PartialEq)]" :: itemLines name m members := by
  simp only [lines, structLines, itemLines, List.append_assoc, List.cons_append, List.nil_append]

section

variable {name : String} (hname : IsStructName name) {members : List Member}
  (hmembers : ∀ x ∈ members, ∀ c ∈ x.name.toList, isNameChar c = true)

include hname hmembers

/-- The lines behind the directive say what the struct is, and what is done with its members. -/
theorem reads_itemLines (m : Message) : Reads forms (itemLines name m members)
    ([.struct name] ++ members.map (fun x ↦ .member x.declared) ++
      ([.hash (upperHex 8 m.hash.toNat)] ++
        members.map (fun x ↦ .encode x.name x.field.length.isSome) ++
        members.map (fun x ↦ .decode x.name x.field.length.isSome)) ++
      members.map fun x ↦ .initial x.name (zeroLiteral x.field.type) x.field.length) := by
  have hdeclare := Reads.map fun x hx ↦ Member.reads_declaration (hmembers x hx)
  have hafter : Reads forms ["\x7d", ""] [] := by
    iterate 2 refine .cons (reads_fixed rfl) ?_
    exact .nil
  have hstruct := (hname.reads_struct.append hdeclare).append_silent hafter
  exact ((hstruct.append (hname.reads_implLines hmembers m)).append
    (hname.reads_defaultLines hmembers)).append_silent hname.reads_payloadLines

/-- The lines of code of a module are those behind the directive, whatever its banner says. -/
theorem codeLines_module (m : Message) (sourceName : Option String) :
    codeLines (joinLines (lines m sourceName name members)) =
      (itemLines name m members).map String.toList :=
  codeLines_joinLines (reads_itemLines hname hmembers m).isCode (lines_eq name m members sourceName)
    (by decide) (by decide)

/-- The code of a module says what its message says. -/
theorem read_joinLines (m : Message) (sourceName : Option String) :
    read (joinLines (lines m sourceName name members)) = reading name m.hash members := by
  have hlines := reads_itemLines hname hmembers m
  rw [read, statements, codeLines_module hname hmembers, List.filterMap_map]
  simp only [Function.comp_def, hlines.filterMap_eq, Reading.ofStatements, reading,
    List.filterMap_append, List.filterMap_map, List.filterMap_cons, List.filterMap_nil]
  simp

end

end WireSchema.RustModule
