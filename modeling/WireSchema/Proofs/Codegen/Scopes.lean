import Mathlib.Data.List.Forall2
import Mathlib.Data.List.Nodup
import WireSchema.Catalog
import WireSchema.Proofs.Codegen.CppStatements
import WireSchema.Proofs.Schema.Acceptance

/-!
# Names and scopes of C++ headers

Which declaration a name means depends on the scopes around it: in a function its parameters and
variables hide the members of the struct. `scopes` reads from the lines of a header which names are
declared in which scope, and which names the functions hand to the writer and the reader. The main
statement says what the scopes of a header are, and that its names are kept apart exactly if no
field is named like something that every header declares or like the struct, and the struct is not
named like a member that every header has.
-/

namespace WireSchema.CppHeader

open Codegen Text

/-! ### What lines declare -/

/-- What a line of a header has to do with scopes. -/
inductive LineKind
  | opens
  | closes
  | declares (name : String)
  /-- The heading of a function, with its parameters. -/
  | heading (name : String) (parameters : List String)
  /-- A name is handed to the writer or to the reader. -/
  | hands (name : String)
  | other
  deriving DecidableEq, Repr

/-- Whether the character is no part of the type and the name that a declaration starts with. -/
def endsName (c : Char) : Bool := c == '(' || c == '[' || c == '=' || c == ';'

/-- The parts of a text between spaces. -/
def words (s : List Char) : List (List Char) := (s.splitOn ' ').filter fun word ↦ !word.isEmpty

/-- The name that is declared behind its type. -/
def nameIn? (s : List Char) : Option String :=
  match words s with
  | [] => none
  | [_] => none
  | type :: rest => if type = "return".toList then none else rest.getLast?.map String.ofList

/-- The names that are declared between parentheses. -/
def parameters (s : List Char) : List String :=
  ((((s.dropWhile (· != '(')).drop 1).takeWhile (· != ')')).splitOn ',').filterMap nameIn?

/-- What a line has to do with scopes, without the spaces that it starts with. -/
def textKind (text : List Char) : Option LineKind :=
  if text.head? = some '\x7b' then some .opens
  else if text.head? = some '\x7d' then some .closes
  else (nameIn? (text.takeWhile fun c ↦ !endsName c)).map fun name ↦
    if (text.find? endsName) = some '(' && text.getLast? != some ';' then
      .heading name (parameters text)
    else .declares name

/-- What a line has to do with scopes. -/
def kind (line : List Char) : LineKind :=
  match textKind (line.dropWhile (· == ' ')) with
  | some kind => kind
  | none =>
    match statement? forms line with
    | some (.encode name _) => .hands name
    | some (.decode name _) => .hands name
    | _ => .other

/-! ### Scopes -/

/-- A function: the names that it declares, parameters first, and those that it hands to the writer
or to the reader. -/
structure Function where
  name : String
  locals : List String := []
  arguments : List String := []
  deriving DecidableEq, Repr

/-- The names that are declared outside of all structs and in them, and the functions. -/
structure Scopes where
  outer : List String := []
  members : List String := []
  functions : List Function := []
  deriving DecidableEq, Repr

/-- The scopes up to some line, the number of those that are open, and the function whose heading
came last. -/
structure Scan extends Scopes where
  depth : Nat := 0
  current : Function := ⟨"", [], []⟩

namespace Scan

/-- A name is declared in the innermost open scope. -/
def declare (s : Scan) (name : String) : Scan :=
  match s.depth with
  | 0 => { s with outer := s.outer ++ [name] }
  | 1 => { s with members := s.members ++ [name] }
  | _ => { s with current.locals := s.current.locals ++ [name] }

/-- The scopes behind the next line. -/
def step (s : Scan) : LineKind → Scan
  | .opens => { s with depth := s.depth + 1 }
  | .closes =>
    { s with
      depth := s.depth - 1
      functions := if s.depth = 2 then s.functions ++ [s.current] else s.functions }
  | .declares name => s.declare name
  | .heading name parameters => { s.declare name with current := ⟨name, parameters, []⟩ }
  | .hands name => { s with current.arguments := s.current.arguments ++ [name] }
  | .other => s

end Scan

/-- The scopes of a header. -/
def scopes (code : String) : Scopes :=
  (((codeLines code).map kind).foldl Scan.step {}).toScopes

/-- Which member a name means in a function: none where the function declares the name itself, or
where not exactly one member has it. What is declared outside does not count, as a member hides it,
and a variable among the members may even have the name of their struct. -/
def Scopes.member? (s : Scopes) (fn : Function) (name : String) : Option Nat :=
  if name ∉ fn.locals ∧ s.members.count name = 1 then some (s.members.idxOf name) else none

/-- The names of a message are kept apart: no function declares the name of a field, no two names of
the struct are the same, its own among them, and every function hands over the fields in order. -/
structure KeepsApart (m : Message) (s : Scopes) : Prop where
  not_local : ∀ fn ∈ s.functions, ∀ f ∈ m.fields, f.name ∉ fn.locals
  nodup : (s.outer ++ s.members).Nodup
  arguments : ∀ fn ∈ s.functions,
    fn.arguments.map (s.member? fn) = (List.range m.fields.length).map some

/-! ### Kinds of lines -/

/-- A single line of code is of the given kind. -/
def IsOfKind (line : String) (k : LineKind) : Prop :=
  ('\n' ∉ line.toList ∧ isCode line.toList = true) ∧ kind line.toList = k

instance (line : String) (k : LineKind) : Decidable (IsOfKind line k) :=
  inferInstanceAs (Decidable (_ ∧ _))

/-- The parts of a text between spaces start with what is before the first one. -/
theorem words_append_space {word : List Char} (hne : word ≠ []) (hspace : ' ' ∉ word)
    (s : List Char) : words (word ++ ' ' :: s) = word :: words s := by
  rw [words, List.splitOn_append_cons_self_of_not_mem hspace, List.filter_cons_of_pos (by simpa)]
  rfl

/-- A text without spaces is one part. -/
theorem words_of_not_mem {word : List Char} (hne : word ≠ []) (hspace : ' ' ∉ word) :
    words word = [word] := by
  rw [words, List.splitOn_eq_singleton hspace, List.filter_cons_of_pos (by simpa),
    List.filter_nil]

/-- A type and a name declare the name. -/
theorem nameIn?_append {type name : List Char} (htype : isName type = true)
    (hname : isName name = true) (hreturn : type ≠ "return".toList) :
    nameIn? (type ++ ' ' :: name) = some (String.ofList name) := by
  have hspace {s : List Char} (h : isName s = true) : ' ' ∉ s := not_mem_of_isName h (by decide)
  rw [nameIn?, words_append_space (ne_nil_of_isName htype) (hspace htype),
    words_of_not_mem (ne_nil_of_isName hname) (hspace hname)]
  exact if_neg hreturn

/-- The first character of a class is the one where a text without any stops. -/
theorem find?_append_of_stops {p : Char → Bool} {u s : List Char} (hu : ∀ c ∈ u, (!p c) = true)
    (hs : Stops (fun c ↦ !p c) s) : (u ++ s).find? p = s.head? := by
  have hnone : u.find? p = none := List.find?_eq_none.mpr fun c hc ↦ by simpa using hu c hc
  rw [List.find?_append, hnone, Option.none_or]
  cases s with
  | nil => rfl
  | cons c s => exact List.find?_cons_of_pos (by simpa using stops_cons.mp hs)

/-- A line declares the name before the first character that ends it. -/
theorem kind_eq_declares (n : Nat) (head rest : List Char) {name : String}
    (hfirst : head.head?.all isNameChar = true) (hhead : head.all (fun c ↦ !endsName c) = true)
    (hrest : Stops (fun c ↦ !endsName c) rest) (hparen : rest.head? ≠ some '(')
    (hname : nameIn? head = some name) :
    kind (List.replicate n ' ' ++ (head ++ rest)) = .declares name := by
  rw [List.all_eq_true] at hhead
  have htake := takeWhile_append_of_stops hhead hrest
  have hfind := find?_append_of_stops hhead hrest
  cases head with
  | nil => cases hname
  | cons c head =>
    have hc {d : Char} (hd : isNameChar d = false) : c ≠ d := by
      rintro rfl
      exact absurd (hd.symm.trans hfirst) (by decide)
    have htext : (List.replicate n ' ' ++ (c :: head ++ rest)).dropWhile (· == ' ') =
        c :: head ++ rest :=
      dropWhile_append_of_stops (by simp) (stops_cons.mpr (by simpa using hc (by decide)))
    have hbrace {d : Char} (hd : isNameChar d = false) : (c :: head ++ rest).head? ≠ some d :=
      fun h ↦ hc hd (Option.some.inj h)
    rw [kind, htext, textKind, if_neg (hbrace (by decide)), if_neg (hbrace (by decide)), htake,
      hfind, hname]
    simp only [hparen, decide_false, Bool.false_and, Bool.false_eq_true, if_false, Option.map_some]

/-- A line that tests a call hands over the name that is read from it. -/
theorem isOfKind_hands {line name : String} {length : Option UInt32}
    {s : Statement (Option UInt32)} (hreads : Reads forms [line] [s])
    (hs : s = .encode name length ∨ s = .decode name length) (n : Nat)
    (hline : ∃ rest, line.toList = List.replicate n ' ' ++ ("if (".toList ++ rest)) :
    IsOfKind line (.hands name) := by
  refine ⟨hreads.isCode _ (List.mem_singleton_self _), ?_⟩
  obtain ⟨rest, hrest⟩ := hline
  have htext : line.toList.dropWhile (· == ' ') = "if (".toList ++ rest := by
    rw [hrest]
    exact dropWhile_append_of_stops (by simp) (stops_cons.mpr (by decide))
  have hnone : textKind ("if (".toList ++ rest) = none := rfl
  rw [kind, htext, hnone, hreads.statement?_eq]
  rcases hs with rfl | rfl <;> rfl

/-! ### The lines of a header -/

/-- No name character ends a name. -/
theorem endsName_of_isNameChar {c : Char} (h : isNameChar c = true) : endsName c = false := by
  have hc {d : Char} (hd : isNameChar d = false) : (c == d) = false := by
    rw [beq_eq_false_iff_ne]
    rintro rfl
    rw [h] at hd
    cases hd
  simp only [endsName, hc (show isNameChar '(' = false by decide),
    hc (show isNameChar '[' = false by decide), hc (show isNameChar '=' = false by decide),
    hc (show isNameChar ';' = false by decide), Bool.or_false]

variable {f : Field} {m : Message}

/-- A type and a name before what ends the name declare the name. -/
theorem kind_eq_declares_name {type name rest : List Char} (n : Nat) (htype : isName type = true)
    (hname : isName name = true) (hreturn : type ≠ "return".toList)
    (hrest : Stops (fun c ↦ !endsName c) rest) (hparen : rest.head? ≠ some '(') :
    kind (List.replicate n ' ' ++ (type ++ ' ' :: name ++ rest)) =
      .declares (String.ofList name) := by
  have hends {s : List Char} (h : isName s = true) : ∀ c ∈ s, (!endsName c) = true :=
    fun c hc ↦ by simp [endsName_of_isNameChar (isNameChar_of_mem_name h c hc)]
  refine kind_eq_declares n _ _ ?_ ?_ hrest hparen (nameIn?_append htype hname hreturn)
  · cases type with
    | nil => cases htype
    | cons c type => exact isNameChar_of_mem_name htype c List.mem_cons_self
  · rw [List.all_eq_true]
    simp only [List.forall_mem_append, List.forall_mem_cons]
    exact ⟨hends htype, by decide, hends hname⟩

/-- The line that starts the struct declares its name. -/
theorem isOfKind_struct {name : String} (h : isName name.toList = true) :
    IsOfKind ("struct " ++ name) (.declares name) := by
  refine ⟨(reads_struct (isNameChar_of_mem_name h)).isCode _ (List.mem_singleton_self _), ?_⟩
  have hline : ("struct " ++ name).toList =
      List.replicate 0 ' ' ++ ("struct".toList ++ ' ' :: name.toList ++ []) := by simp
  rw [hline, kind_eq_declares_name 0 (by decide) h (by decide) (stops_nil _) (by simp),
    String.ofList_toList]

/-- The declaration of a field declares its name. -/
theorem isOfKind_declaration (h : isName f.name.toList = true) :
    IsOfKind (declaration f) (.declares f.name) := by
  refine ⟨(reads_declaration (isNameChar_of_mem_name h)).isCode _ (List.mem_singleton_self _), ?_⟩
  have hline : (declaration f).toList = List.replicate 4 ' ' ++
      (f.type.name.toList ++ ' ' :: f.name.toList ++ (extent f.length ++ [';'])) := by
    rw [toList_declaration, List.append_assoc, List.cons_append, ← List.append_assoc f.name.toList]
    rfl
  have hreturn : f.type.name.toList ≠ "return".toList := by cases f.type <;> decide
  have hrest : Stops (fun c ↦ !endsName c) (extent f.length ++ [';']) := by
    cases f.length <;> exact stops_cons.mpr rfl
  have hparen : (extent f.length ++ [';']).head? ≠ some '(' := by
    cases f.length <;> simp [extent]
  rw [hline, kind_eq_declares_name 4 (Grammar.isName_typeName f.type) h hreturn hrest hparen,
    String.ofList_toList]

/-- The line of the hash declares its name. -/
theorem isOfKind_hash (hash : UInt32) :
    IsOfKind ("    static const uint32_t kMsgHash = 0x" ++ String.ofList (upperHex 8 hash.toNat) ++
      "u;") (.declares "kMsgHash") := by
  refine ⟨(reads_hash hash).isCode _ (List.mem_singleton_self _), ?_⟩
  rw [String.append_assoc, String.toList_append]
  exact kind_eq_declares 4 "static const uint32_t kMsgHash ".toList ('=' :: _) (by decide)
    (by decide) (stops_cons.mpr rfl) (by simp) (by decide)

/-- The line of the payload size declares its name. -/
theorem isOfKind_size (fields : List Field) :
    IsOfKind ("    static const size_t kPayloadSize = " ++ sizeExpression fields ++ ";")
      (.declares "kPayloadSize") := by
  refine ⟨(reads_size fields).isCode _ (List.mem_singleton_self _), ?_⟩
  rw [String.append_assoc, String.toList_append]
  exact kind_eq_declares 4 "static const size_t kPayloadSize ".toList ('=' :: _) (by decide)
    (by decide) (stops_cons.mpr rfl) (by simp) (by decide)

/-- The line that encodes a field hands its name to the writer. -/
theorem isOfKind_encoder (h : isName f.name.toList = true) :
    IsOfKind (encoder f) (.hands f.name) := by
  refine isOfKind_hands (reads_encoder (isNameChar_of_mem_name h)) (.inl rfl) 8 ?_
  unfold encoder
  split <;> simp only [String.toList_append, List.append_assoc] <;> exact ⟨_, rfl⟩

/-- The line that decodes a field hands its name to the reader. -/
theorem isOfKind_decoder (h : isName f.name.toList = true) :
    IsOfKind (decoder f) (.hands f.name) := by
  refine isOfKind_hands (reads_decoder (isNameChar_of_mem_name h)) (.inr rfl) 8 ?_
  unfold decoder
  split <;> simp only [String.toList_append, List.append_assoc] <;> exact ⟨_, rfl⟩

/-- The kinds of the lines of a header. -/
def kinds (m : Message) : List LineKind :=
  [.other, .declares m.structName, .opens] ++ m.fields.map (fun f ↦ .declares f.name) ++
    [.other, .declares "kMsgHash", .declares "kPayloadSize", .other,
      .heading "encode" ["umsg_payload"], .opens, .other, .declares "umsg_cap",
      .declares "umsg_w"] ++ m.fields.map (fun f ↦ .hands f.name) ++
    [.other, .other, .other, .closes, .other, .heading "decode" ["umsg_payload"], .opens,
      .declares "umsg_r"] ++ m.fields.map (fun f ↦ .hands f.name) ++
    [.other, .closes, .closes, .other]

/-- The lines of a header are of these kinds. -/
theorem map_kind_codeLines (hstruct : isName m.structName.toList = true)
    (hfields : ∀ f ∈ m.fields, isName f.name.toList = true) (sourceName : Option String) :
    (codeLines (render m sourceName)).map kind = kinds m := by
  have hmap {line : Field → String} {k : Field → LineKind}
      (h : ∀ f, isName f.name.toList = true → IsOfKind (line f) (k f)) :
      List.Forall₂ IsOfKind (m.fields.map line) (m.fields.map k) := by
    rw [List.forall₂_map_left_iff, List.forall₂_map_right_iff, List.forall₂_same]
    exact fun f hf ↦ h f (hfields f hf)
  have hdeclare := hmap fun _ ↦ isOfKind_declaration
  have hencode := hmap fun _ ↦ isOfKind_encoder
  have hdecode := hmap fun _ ↦ isOfKind_decoder
  obtain ⟨after, hkinds, hall⟩ : ∃ after, List.Forall₂ IsOfKind after (kinds m) ∧
      lines m sourceName = (["#pragma once", "#include <stddef.h>", "#include <stdint.h>", ""] ++
        banner sourceName ++ [""]) ++ "#include \"marshalling.hpp\"" :: after := by
    simp only [lines, kinds, List.append_assoc, List.cons_append, List.nil_append]
    -- the lines behind the last directive, which has the banner before it
    refine ⟨_, ?_, rfl⟩
    refine .cons (by decide +kernel) (.cons (isOfKind_struct hstruct) ?_)
    refine .cons (by decide +kernel) (List.rel_append hdeclare ?_)
    refine .cons (by decide +kernel) (.cons (isOfKind_hash _) (.cons (isOfKind_size _) ?_))
    iterate 6 refine .cons (by decide +kernel) ?_
    refine List.rel_append hencode ?_
    iterate 8 refine .cons (by decide +kernel) ?_
    refine List.rel_append hdecode ?_
    iterate 4 refine .cons (by decide +kernel) ?_
    exact .nil
  obtain ⟨hcode, hkind⟩ := (List.forall₂_and_left _ _).mp hkinds
  rw [render, codeLines_joinLines hcode hall (by decide) (by decide), List.map_map]
  rwa [← List.forall₂_map_left_iff, List.forall₂_eq_eq_eq] at hkind

/-! ### The scopes of a header -/

/-- Members are declared one after the other. -/
theorem foldl_declares (s : Scan) (names : List String) (h : s.depth = 1) :
    (names.map LineKind.declares).foldl Scan.step s = { s with members := s.members ++ names } := by
  induction names generalizing s with
  | nil => simp
  | cons name names ih =>
    have hdeclare : s.step (.declares name) = { s with members := s.members ++ [name] } := by
      simp [Scan.step, Scan.declare, h]
    rw [List.map_cons, List.foldl_cons, hdeclare, ih { s with members := s.members ++ [name] } h]
    simp

/-- Names are handed over one after the other. -/
theorem foldl_hands (s : Scan) (names : List String) :
    (names.map LineKind.hands).foldl Scan.step s =
      { s with current.arguments := s.current.arguments ++ names } := by
  induction names generalizing s with
  | nil => simp
  | cons name names ih =>
    rw [List.map_cons, List.foldl_cons, ih]
    simp [Scan.step]

/-- The names that the functions of every header declare. -/
def fixedLocals : List String := ["umsg_payload", "umsg_cap", "umsg_w", "umsg_r"]

/-- The members that every header has besides the fields. -/
def fixedMembers : List String := ["kMsgHash", "kPayloadSize", "encode", "decode"]

/-- The scopes of the header of a message. -/
def headerScopes (m : Message) : Scopes where
  outer := [m.structName]
  members := m.fields.map Field.name ++ fixedMembers
  functions := [
    ⟨"encode", ["umsg_payload", "umsg_cap", "umsg_w"], m.fields.map Field.name⟩,
    ⟨"decode", ["umsg_payload", "umsg_r"], m.fields.map Field.name⟩]

/-- The header of a message has the scopes that the message asks for. -/
theorem scopes_render (hstruct : isName m.structName.toList = true)
    (hfields : ∀ f ∈ m.fields, isName f.name.toList = true) (sourceName : Option String) :
    scopes (render m sourceName) = headerScopes m := by
  have hdeclares : m.fields.map (fun f ↦ LineKind.declares f.name) =
      (m.fields.map Field.name).map LineKind.declares := by simp
  have hhands : m.fields.map (fun f ↦ LineKind.hands f.name) =
      (m.fields.map Field.name).map LineKind.hands := by simp
  rw [scopes, map_kind_codeLines hstruct hfields, kinds, hdeclares, hhands]
  simp only [List.foldl_append, List.foldl_cons, List.foldl_nil, foldl_hands]
  rw [foldl_declares _ _ rfl]
  simp [Scan.step, Scan.declare, headerScopes, fixedMembers]

/-! ### Names that are kept apart -/

/-- A name means a member if it is the only one of the name and no local hides it. -/
theorem Scopes.member?_eq_some_iff {s : Scopes} {fn : Function} {name : String} {k : Nat} :
    s.member? fn name = some k ↔
      (name ∉ fn.locals ∧ s.members.count name = 1) ∧ s.members.idxOf name = k := by
  rw [Scopes.member?, Option.ite_none_right_eq_some, Option.some.injEq]

/-- No field has a fixed name or that of the struct, and the struct is not named like a fixed
member. -/
def AvoidsFixedNames (m : Message) : Prop :=
  (∀ f ∈ m.fields, f.name ∉ fixedLocals ++ fixedMembers ∧ f.name ≠ m.structName) ∧
    m.structName ∉ fixedMembers

instance (m : Message) : Decidable (AvoidsFixedNames m) := inferInstanceAs (Decidable (_ ∧ _))

/-- The functions of a header declare the fixed names only. -/
theorem not_mem_locals_iff {name : String} :
    (∀ fn ∈ (headerScopes m).functions, name ∉ fn.locals) ↔ name ∉ fixedLocals := by
  rw [headerScopes, List.forall_mem_cons, List.forall_mem_singleton]
  simp only [fixedLocals, List.mem_cons, not_or, List.not_mem_nil]
  tauto

variable (hnodup : (m.fields.map Field.name).Nodup)

include hnodup

/-- The name of a field means the field exactly if no local and no other member has it. -/
theorem member?_headerScopes_iff {fn : Function} {i : Nat} (hi : i < m.fields.length) :
    (headerScopes m).member? fn m.fields[i].name = some i ↔
      m.fields[i].name ∉ fn.locals ∧ m.fields[i].name ∉ fixedMembers := by
  have hmap : i < (m.fields.map Field.name).length := by simpa using hi
  have hmem : m.fields[i].name ∈ m.fields.map Field.name :=
    List.mem_map_of_mem (List.getElem_mem hi)
  have hindex : (headerScopes m).members.idxOf m.fields[i].name = i := by
    rw [headerScopes, List.idxOf_append_of_mem hmem]
    simpa using hnodup.idxOf_getElem i hmap
  have hone : (m.fields.map Field.name).count m.fields[i].name = 1 :=
    List.nodup_iff_count_eq_one.mp hnodup _ hmem
  have hcount : (headerScopes m).members.count m.fields[i].name = 1 ↔
      m.fields[i].name ∉ fixedMembers := by
    rw [headerScopes, List.count_append, hone, ← List.count_eq_zero]
    omega
  rw [Scopes.member?_eq_some_iff, hcount, hindex, and_iff_left rfl]

/-- The names of the struct are different exactly if no field is named like a fixed member or like
the struct, and the struct is not named like a fixed member. -/
theorem nodup_headerScopes_iff : ((headerScopes m).outer ++ (headerScopes m).members).Nodup ↔
    (∀ f ∈ m.fields, f.name ∉ fixedMembers ∧ f.name ≠ m.structName) ∧
      m.structName ∉ fixedMembers := by
  have hfixed : fixedMembers.Nodup := by decide
  rw [headerScopes, List.singleton_append, List.nodup_cons, List.mem_append, not_or,
    List.nodup_append]
  simp only [List.mem_map, not_exists, not_and]
  constructor
  · rintro ⟨⟨hstruct, hstructFixed⟩, _, _, hdisjoint⟩
    refine ⟨fun f hf ↦ ⟨fun hmem ↦ ?_, hstruct f hf⟩, hstructFixed⟩
    exact hdisjoint f.name ⟨f, hf, rfl⟩ f.name hmem rfl
  · rintro ⟨hfields, hstruct⟩
    refine ⟨⟨fun f hf ↦ (hfields f hf).2, hstruct⟩, hnodup, hfixed, ?_⟩
    rintro _ ⟨f, hf, rfl⟩ name hname he
    exact (hfields f hf).1 (he ▸ hname)

/-- The names of a header are kept apart exactly if those of the message avoid the fixed ones. -/
theorem keepsApart_headerScopes_iff : KeepsApart m (headerScopes m) ↔ AvoidsFixedNames m := by
  constructor
  · intro h
    obtain ⟨hfields, hstruct⟩ := (nodup_headerScopes_iff hnodup).mp h.nodup
    refine ⟨fun f hf ↦ ⟨?_, (hfields f hf).2⟩, hstruct⟩
    rw [List.mem_append, not_or]
    exact ⟨not_mem_locals_iff.mp fun fn hfn ↦ h.not_local fn hfn f hf, (hfields f hf).1⟩
  · rintro ⟨hfields, hstruct⟩
    simp only [List.mem_append, not_or] at hfields
    have hlocal : ∀ fn ∈ (headerScopes m).functions, ∀ f ∈ m.fields, f.name ∉ fn.locals :=
      fun fn hfn f hf ↦ not_mem_locals_iff.mpr (hfields f hf).1.1 fn hfn
    -- the fields are the first members, so that the place of a member is that of its field
    refine ⟨hlocal, (nodup_headerScopes_iff hnodup).mpr
      ⟨fun f hf ↦ ⟨(hfields f hf).1.2, (hfields f hf).2⟩, hstruct⟩, fun fn hfn ↦ ?_⟩
    have harguments : fn.arguments = m.fields.map Field.name := by
      simp only [headerScopes, List.mem_cons, List.not_mem_nil, or_false] at hfn
      rcases hfn with rfl | rfl <;> rfl
    refine List.ext_getElem (by simp [harguments]) fun i hi _ ↦ ?_
    have hi : i < m.fields.length := by simpa [harguments] using hi
    have hfield := hfields _ (List.getElem_mem hi)
    simp only [harguments, List.getElem_map, List.getElem_range]
    exact (member?_headerScopes_iff hnodup hi).mpr
      ⟨hlocal fn hfn _ (List.getElem_mem hi), hfield.1.2⟩

omit hnodup

variable {source : String} (h : Message.parse source = .ok m)

include h

/-- The header of an accepted schema has the scopes that its message asks for. -/
theorem scopes_render_of_parse (sourceName : Option String) :
    scopes (render m sourceName) = headerScopes m := by
  obtain ⟨hstruct, hfields⟩ := (Message.parse_eq_ok_iff.mp h).1.isName_names
  exact scopes_render hstruct hfields sourceName

/-- Its names are kept apart exactly if those of the message avoid the fixed ones. -/
theorem keepsApart_render_iff (sourceName : Option String) :
    KeepsApart m (scopes (render m sourceName)) ↔ AvoidsFixedNames m := by
  obtain ⟨_, _, hnodup, _⟩ := Message.parse_eq_ok_iff.mp h
  rw [scopes_render_of_parse h]
  exact keepsApart_headerScopes_iff hnodup

/-- The header of an accepted schema declares the names of the message and the fixed ones, each in
its scope, and encodes and decodes the fields in order. The name of a field means that field exactly
if the function does not declare it and no fixed member has it, also where the struct has it; and
the names are kept apart exactly if those of the message avoid the fixed ones. -/
theorem keepsApart_iff_of_parse (sourceName : Option String) :
    scopes (render m sourceName) = headerScopes m ∧
      (∀ fn ∈ (headerScopes m).functions, ∀ i, ∀ hi : i < m.fields.length,
        (headerScopes m).member? fn m.fields[i].name = some i ↔
          m.fields[i].name ∉ fn.locals ∧ m.fields[i].name ∉ fixedMembers) ∧
      (KeepsApart m (scopes (render m sourceName)) ↔ AvoidsFixedNames m) := by
  obtain ⟨_, _, hnodup, _⟩ := Message.parse_eq_ok_iff.mp h
  exact ⟨scopes_render_of_parse h sourceName, fun _ _ _ hi ↦ member?_headerScopes_iff hnodup hi,
    keepsApart_render_iff h sourceName⟩

omit h

/-- The names of a command to a lamp are kept apart. -/
theorem keepsApart_ledCommand : Message.parse Catalog.ledCommandText = .ok Catalog.ledCommand ∧
    KeepsApart Catalog.ledCommand (scopes (render Catalog.ledCommand none)) :=
  ⟨Catalog.parse_ledCommandText,
    (keepsApart_iff_of_parse Catalog.parse_ledCommandText none).2.2.mpr (by decide +kernel)⟩

/-- A field may be named like a variable, like a fixed member or like the struct, and the struct
like a fixed member. -/
theorem not_keepsApart_of_fixed_names : ∃ hidden twice own struct : Message,
    (Message.parse "struct A{bool umsg_w;};" = .ok hidden ∧
      ¬KeepsApart hidden (scopes (render hidden none))) ∧
    (Message.parse "struct A{bool kMsgHash;};" = .ok twice ∧
      ¬KeepsApart twice (scopes (render twice none))) ∧
    (Message.parse "struct A{bool A;};" = .ok own ∧
      ¬KeepsApart own (scopes (render own none))) ∧
    Message.parse "struct encode{bool b;};" = .ok struct ∧
      ¬KeepsApart struct (scopes (render struct none)) := by
  have hhidden : Message.parse "struct A{bool umsg_w;};" =
      .ok (Message.compose "A" none [⟨.bool, "umsg_w", none⟩]) := by decide +kernel
  have htwice : Message.parse "struct A{bool kMsgHash;};" =
      .ok (Message.compose "A" none [⟨.bool, "kMsgHash", none⟩]) := by decide +kernel
  have hown : Message.parse "struct A{bool A;};" =
      .ok (Message.compose "A" none [⟨.bool, "A", none⟩]) := by decide +kernel
  have hstruct : Message.parse "struct encode{bool b;};" =
      .ok (Message.compose "encode" none [⟨.bool, "b", none⟩]) := by decide +kernel
  refine ⟨_, _, _, _, ⟨hhidden, ?_⟩, ⟨htwice, ?_⟩, ⟨hown, ?_⟩, hstruct, ?_⟩
  · exact (keepsApart_render_iff hhidden none).not.mpr (by decide +kernel)
  · exact (keepsApart_render_iff htwice none).not.mpr (by decide +kernel)
  · exact (keepsApart_render_iff hown none).not.mpr (by decide +kernel)
  · exact (keepsApart_render_iff hstruct none).not.mpr (by decide +kernel)

end WireSchema.CppHeader
