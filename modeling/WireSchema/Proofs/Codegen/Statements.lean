import Mathlib.Data.List.DropRight
import WireSchema.Proofs.Text.LineForm
import WireSchema.Proofs.Text.Lines
import WireSchema.Schema.Message

/-!
# Statements of generated code

Generated code says what a message is in several places: where it declares the members of a struct,
gives their default values, and encodes and decodes them. Each of these is a line of a fixed form,
and `statements` reads all of them, in order, from the lines of a text. It reads no line up to the
last directive, a line that starts with `#`: the banner before it may have any lines.

A list of lines is known by what is read from it (`Reads`), piece by piece: written lines of a form
are read back, and fixed lines and lines that start in a fixed way have no statement.
-/

namespace WireSchema.Codegen

open Text LineForm

/-- What a line of generated code says about a message. A language decides what its statements on
encoding and decoding say about the extent of a field. -/
inductive Statement (α : Type)
  | struct (name : String)
  | member (field : Field)
  | hash (digits : List Char)
  | initial (name zero : String) (length : Option UInt32)
  | encode (name : String) (extent : α)
  | decode (name : String) (extent : α)
  deriving DecidableEq, Repr

/-- The lines of one kind of statement: their form, and what the runs of such a line say. -/
structure StatementForm (α : Type) where
  pieces : List Piece
  statement? : List (List Char) → Option (Statement α)

variable {α : Type}

/-- The statement of a line. -/
def statement? (forms : List (StatementForm α)) (line : List Char) : Option (Statement α) :=
  forms.findSome? fun form ↦ (runs? form.pieces line).bind form.statement?

/-- Whether the line is no directive. -/
def isCode (line : List Char) : Bool := line.head? != some '#'

/-- The lines after the last directive. -/
def codeLines (text : String) : List (List Char) := (text.toList.splitOn '\n').rtakeWhile isCode

/-- The statements after the last directive. -/
def statements (forms : List (StatementForm α)) (text : String) : List (Statement α) :=
  (codeLines text).filterMap (statement? forms)

namespace Statement

/-- The name of a struct. -/
@[simp] def struct? : Statement α → Option String
  | struct name => some name
  | _ => none

/-- A member of a struct. -/
@[simp] def member? : Statement α → Option Field
  | member field => some field
  | _ => none

/-- The digits of a hash. -/
@[simp] def hash? : Statement α → Option (List Char)
  | hash digits => some digits
  | _ => none

/-- The name, the zero and the array length of a default value. -/
@[simp] def initial? : Statement α → Option (String × String × Option UInt32)
  | initial name zero length => some (name, zero, length)
  | _ => none

/-- The name and the extent of a field that is encoded. -/
@[simp] def encode? : Statement α → Option (String × α)
  | encode name extent => some (name, extent)
  | _ => none

/-- The name and the extent of a field that is decoded. -/
@[simp] def decode? : Statement α → Option (String × α)
  | decode name extent => some (name, extent)
  | _ => none

end Statement

/-- What a text says about a message, kind by kind: the structs and their members, the hashes, the
default values, and the names and extents of what is encoded and decoded. -/
structure Reading (α : Type) where
  structNames : List String
  members : List Field
  hashes : List (List Char)
  initials : List (String × String × Option UInt32)
  encoded : List (String × α)
  decoded : List (String × α)

/-- What statements say. -/
def Reading.ofStatements (ss : List (Statement α)) : Reading α where
  structNames := ss.filterMap Statement.struct?
  members := ss.filterMap Statement.member?
  hashes := ss.filterMap Statement.hash?
  initials := ss.filterMap Statement.initial?
  encoded := ss.filterMap Statement.encode?
  decoded := ss.filterMap Statement.decode?

/-! ### Lines and what is read from them -/

/-- What ends a list is taken from its end up to the first element that fails the test. -/
theorem rtakeWhile_append_cons {β : Type} {p : β → Bool} {before after : List β} {x : β}
    (hx : p x = false) (h : ∀ y ∈ after, p y = true) :
    (before ++ x :: after).rtakeWhile p = after := by
  have hreverse : (before ++ x :: after).reverse = after.reverse ++ x :: before.reverse := by simp
  rw [List.rtakeWhile, hreverse,
    List.takeWhile_append_of_pos fun y hy ↦ h y (List.mem_reverse.mp hy),
    List.takeWhile_cons_of_neg (by simp [hx]), List.append_nil, List.reverse_reverse]

/-- The lines after a directive are found again, whatever comes before. -/
theorem codeLines_joinLines {lines before after : List String} {directive : List Char}
    (h : ∀ line ∈ after, '\n' ∉ line.toList ∧ isCode line.toList = true)
    (hlines : lines = before ++ String.ofList directive :: after)
    (hdirective : isCode directive = false) (hfeed : '\n' ∉ directive) :
    codeLines (joinLines lines) = after.map String.toList := by
  have hafter : ∀ line ∈ after.map String.toList, '\n' ∉ line ∧ isCode line = true :=
    List.forall_mem_map.mpr h
  rw [hlines, codeLines, toList_joinLines, splitOn_joinChars (by simp), List.map_append,
    List.map_cons, String.toList_ofList, List.flatMap_append, List.flatMap_cons,
    List.splitOn_eq_singleton hfeed, flatMap_splitOn fun line hline ↦ (hafter line hline).1,
    List.singleton_append]
  exact rtakeWhile_append_cons hdirective fun line hline ↦ (hafter line hline).2

/-- The lines are single lines of code, and have the statements. -/
structure Reads (forms : List (StatementForm α)) (lines : List String)
    (statements : List (Statement α)) : Prop where
  isCode : ∀ line ∈ lines, '\n' ∉ line.toList ∧ isCode line.toList = true
  filterMap_eq : lines.filterMap (fun line ↦ statement? forms line.toList) = statements

variable {forms : List (StatementForm α)}

namespace Reads

/-- No lines have no statements. -/
theorem nil : Reads forms [] [] := ⟨by simp, rfl⟩

/-- A line has the statement that is read from it alone. -/
theorem statement?_eq {line : String} {s : Statement α} (h : Reads forms [line] [s]) :
    statement? forms line.toList = some s := by
  have heq := h.filterMap_eq
  cases hs : statement? forms line.toList with
  | none => simp [hs] at heq
  | some s' => simpa [hs] using heq

/-- More lines have more statements. -/
theorem append {lines lines' : List String} {ss ss' : List (Statement α)} (h : Reads forms lines ss)
    (h' : Reads forms lines' ss') : Reads forms (lines ++ lines') (ss ++ ss') :=
  ⟨List.forall_mem_append.mpr ⟨h.isCode, h'.isCode⟩, by
    rw [List.filterMap_append, h.filterMap_eq, h'.filterMap_eq]⟩

/-- Lines without statements before others add none. -/
theorem silent_append {lines lines' : List String} {ss : List (Statement α)}
    (h : Reads forms lines []) (h' : Reads forms lines' ss) : Reads forms (lines ++ lines') ss :=
  h.append h'

/-- Lines without statements after others add none. -/
theorem append_silent {lines lines' : List String} {ss : List (Statement α)}
    (h : Reads forms lines ss) (h' : Reads forms lines' []) : Reads forms (lines ++ lines') ss := by
  have hss := h.append h'
  rwa [List.append_nil] at hss

/-- A line without statements before others adds none. -/
theorem cons {line : String} {lines : List String} {ss : List (Statement α)}
    (hline : Reads forms [line] []) (h : Reads forms lines ss) : Reads forms (line :: lines) ss :=
  hline.silent_append h

/-- One line for each element of a list has one statement for each element. -/
theorem map {β : Type} {line : β → String} {statement : β → Statement α} {xs : List β}
    (h : ∀ x ∈ xs, Reads forms [line x] [statement x]) :
    Reads forms (xs.map line) (xs.map statement) := by
  induction xs with
  | nil => exact nil
  | cons x xs ih =>
    obtain ⟨hx, hxs⟩ := List.forall_mem_cons.mp h
    exact hx.append (ih hxs)

/-- The statements after a directive are those of the lines after it, whatever comes before. -/
theorem statements_joinLines {lines before after : List String} {directive : List Char}
    {ss : List (Statement α)} (h : Reads forms after ss)
    (hlines : lines = before ++ String.ofList directive :: after)
    (hdirective : Codegen.isCode directive = false) (hfeed : '\n' ∉ directive) :
    statements forms (joinLines lines) = ss := by
  rw [statements, codeLines_joinLines h.isCode hlines hdirective hfeed, List.filterMap_map]
  exact h.filterMap_eq

end Reads

/-! ### Lines of a form -/

/-- Every form is one of single lines of code whose runs can be told apart, and no form has lines
that start like those of a later one. -/
structure AreDistinct (forms : List (StatementForm α)) : Prop where
  isSeparated : ∀ form ∈ forms, isSeparated form.pieces = true
  lacks_feed : ∀ form ∈ forms, lacks '\n' form.pieces = true
  isCode : ∀ form ∈ forms, lead form.pieces ≠ [] ∧ isCode (lead form.pieces) = true
  departs : forms.Pairwise fun form later ↦ departs form.pieces (lead later.pieces) = true

private theorem isCode_append {s : List Char} (hne : s ≠ []) (r : List Char) :
    isCode (s ++ r) = isCode s := by
  obtain ⟨c, s, rfl⟩ := List.exists_cons_of_ne_nil hne
  rfl

/-- A line of a form has the statement that the form reads from its runs. -/
theorem AreDistinct.statement?_fill (h : AreDistinct forms) {form : StatementForm α}
    (hform : form ∈ forms) {runs : List (List Char)} {s : Statement α}
    (hfits : Fits form.pieces runs) (hs : form.statement? runs = some s) :
    statement? forms (fill form.pieces runs) = some s := by
  obtain ⟨before, after, rfl⟩ := List.append_of_mem hform
  have hbefore : (before.findSome? fun other ↦
      (runs? other.pieces (fill form.pieces runs)).bind other.statement?) = none := by
    rw [List.findSome?_eq_none_iff]
    intro other hother
    have hdeparts := (List.pairwise_append.mp h.departs).2.2 other hother form List.mem_cons_self
    obtain ⟨r, hr⟩ := exists_fill_eq_lead_append form.pieces runs
    rw [hr, runs?_of_departs hdeparts, Option.bind_none]
  rw [statement?, List.findSome?_append, hbefore, Option.none_or, List.findSome?_cons,
    runs?_fill (h.isSeparated form hform) hfits, Option.bind_some, hs]

/-- A written line is read as a statement. -/
theorem AreDistinct.reads (h : AreDistinct forms) {form : StatementForm α} (hform : form ∈ forms)
    (runs : List (List Char)) {line : String} {s : Statement α}
    (hline : line.toList = fill form.pieces runs) (hfits : Fits form.pieces runs)
    (hs : form.statement? runs = some s) : Reads forms [line] [s] := by
  obtain ⟨hne, hcode⟩ := h.isCode form hform
  obtain ⟨r, hr⟩ := exists_fill_eq_lead_append form.pieces runs
  refine ⟨?_, ?_⟩
  · intro l hl
    rw [List.mem_singleton.mp hl, hline]
    refine ⟨not_mem_fill (h.lacks_feed form hform) hfits, ?_⟩
    rw [hr, isCode_append hne, hcode]
  · rw [List.filterMap_cons, hline, h.statement?_fill hform hfits hs, List.filterMap_nil]

/-- A line with one run, between an indented word and another one, is read as what the form says
about the run. -/
theorem AreDistinct.reads_run (h : AreDistinct forms) {form : StatementForm α}
    (hform : form ∈ forms) {n : Nat} {w w' : List Char} {p : Char → Bool}
    (hpieces : form.pieces = [.spaces n, .word w, .run p, .word w']) {before s after : String}
    (hbefore : before = String.ofList (List.replicate n ' ' ++ w))
    (hafter : after = String.ofList w') (hs : ∀ c ∈ s.toList, p c = true) {st : Statement α}
    (hst : form.statement? [s.toList] = some st) : Reads forms [before ++ s ++ after] [st] := by
  refine h.reads hform [s.toList] ?_ ?_ hst
  · simp [hpieces, hbefore, hafter, Piece.spaces, fill]
  · rw [hpieces]
    exact ⟨hs, trivial⟩

/-- A line with two runs and a word between them is read as what the form says about both. -/
theorem AreDistinct.reads_runs (h : AreDistinct forms) {form : StatementForm α}
    (hform : form ∈ forms) {n : Nat} {w w' w'' : List Char} {p p' : Char → Bool}
    (hpieces : form.pieces = [.spaces n, .word w, .run p, .word w', .run p', .word w''])
    {before s between s' after : String}
    (hbefore : before = String.ofList (List.replicate n ' ' ++ w))
    (hbetween : between = String.ofList w') (hafter : after = String.ofList w'')
    (hs : ∀ c ∈ s.toList, p c = true) (hs' : ∀ c ∈ s'.toList, p' c = true) {st : Statement α}
    (hst : form.statement? [s.toList, s'.toList] = some st) :
    Reads forms [before ++ s ++ between ++ s' ++ after] [st] := by
  refine h.reads hform [s.toList, s'.toList] ?_ ?_ hst
  · simp [hpieces, hbefore, hbetween, hafter, Piece.spaces, fill]
  · rw [hpieces]
    exact ⟨hs, hs', trivial⟩

/-! ### Lines without a statement -/

/-- Whether the text is a single line of code without a statement. -/
def isSilent (forms : List (StatementForm α)) (line : List Char) : Bool :=
  isCode line && !line.contains '\n' && (statement? forms line).isNone

/-- Whether every line that starts with the text, and has no line feed after it, is a single line
of code without a statement. -/
def isSilentOpening (forms : List (StatementForm α)) (opening : List Char) : Bool :=
  !opening.isEmpty && isCode opening && !opening.contains '\n' &&
    forms.all fun form ↦ departs form.pieces opening

/-- A line without a statement has none. -/
theorem reads_fixed {line : List Char} (h : isSilent forms line = true) :
    Reads forms [String.ofList line] [] := by
  simp only [isSilent, Bool.and_eq_true, Bool.not_eq_true', List.contains_eq_mem,
    decide_eq_false_iff_not, Option.isNone_iff_eq_none] at h
  obtain ⟨⟨hcode, hfeed⟩, hnone⟩ := h
  refine ⟨?_, ?_⟩
  · simpa using ⟨hfeed, hcode⟩
  · simp [hnone]

/-- A line that starts with a text without a statement has none. -/
theorem reads_opening {opening : List Char} (h : isSilentOpening forms opening = true)
    {rest : String} (hfeed : '\n' ∉ rest.toList) :
    Reads forms [String.ofList opening ++ rest] [] := by
  simp only [isSilentOpening, Bool.and_eq_true, Bool.not_eq_true', List.isEmpty_eq_false_iff,
    List.contains_eq_mem, decide_eq_false_iff_not, List.all_eq_true] at h
  obtain ⟨⟨⟨hne, hcode⟩, hopening⟩, hdeparts⟩ := h
  have hnone : statement? forms (opening ++ rest.toList) = none := by
    rw [statement?, List.findSome?_eq_none_iff]
    intro form hform
    rw [runs?_of_departs (hdeparts form hform), Option.bind_none]
  refine ⟨?_, ?_⟩
  · simp [isCode_append hne, hcode, hopening, hfeed]
  · simp [hnone]

end WireSchema.Codegen
