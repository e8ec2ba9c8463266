import WireSchema.Proofs.Codegen.Outcome
import WireSchema.Proofs.Schema.Faults
import WireSchema.Proofs.Text.Quoted

/-!
# Diagnostics

A diagnostic is fixed words with quoted texts between them, and at most numbers besides. The error
of a text that is not compiled carries the part of the text that is at fault, and only a length is
worded without quotes, which is digits with a minus sign or none. The main statement says that every
diagnostic is one line without control characters, and which texts are read back from it.
-/

namespace WireSchema

open Text Grammar

/-! ### What a diagnostic quotes -/

namespace SchemaError

/-- The texts that a diagnostic quotes, in order. -/
def quoted : SchemaError → List String
  | missingHeader => []
  | unexpectedPreamble text | trailingContent text | invalidStatement text => [text]
  | unterminatedBrace structName | missingSemicolon structName | noFields structName => [structName]
  | payloadTooLarge structName _ _ | unspellableName structName => [structName]
  | lengthOutOfRange field length => [field ++ "[" ++ length ++ "]: array length out of range"]
  | unsupportedType field typeName => [typeName, field]
  | nonPositiveLength field _ | duplicateField field => [field]
  | nameCollision first second rustName => [first, second, rustName]

/-- What a diagnostic has from a schema without quotes: a length that is not positive. -/
def unquoted : SchemaError → String
  | nonPositiveLength _ length => length
  | _ => ""

/-- A diagnostic quotes its texts, if what it has without quotes is a wording. -/
theorem quotes_message {e : SchemaError} (h : IsWording e.unquoted) :
    Quotes e.message e.quoted := by
  cases e with
  | missingHeader => exact quotes_words ⟨_, rfl, by decide⟩
  | unexpectedPreamble text => exact (quotes_quote text).words_append ⟨_, rfl, by decide⟩
  | unterminatedBrace structName => exact (quotes_quote structName).words_append ⟨_, rfl, by decide⟩
  | missingSemicolon structName => exact (quotes_quote structName).words_append ⟨_, rfl, by decide⟩
  | trailingContent text => exact (quotes_quote text).words_append ⟨_, rfl, by decide⟩
  | invalidStatement text => exact (quotes_quote text).words_append ⟨_, rfl, by decide⟩
  | lengthOutOfRange field length =>
    have htext := quotes_quote (field ++ "[" ++ length ++ "]: array length out of range")
    exact htext.words_append ⟨_, rfl, by decide⟩
  | unsupportedType field typeName =>
    have hfor : IsWording " for field " := ⟨_, rfl, by decide⟩
    have htype : IsWording "unsupported type " := ⟨_, rfl, by decide⟩
    have hquotes := (((quotes_quote field).words_append hfor).quote_append typeName).words_append
      htype
    simp only [← String.append_assoc] at hquotes
    exact hquotes
  | nonPositiveLength field length =>
    have hfield : IsWording "array length of field " := ⟨_, rfl, by decide⟩
    have hfound : IsWording " must be > 0, found " := ⟨_, rfl, by decide⟩
    have hlength : Quotes length [] := quotes_words h
    have hquotes := ((hlength.words_append hfound).quote_append field).words_append hfield
    simp only [← String.append_assoc] at hquotes
    exact hquotes
  | noFields structName => exact quotes_between structName ⟨_, rfl, by decide⟩ ⟨_, rfl, by decide⟩
  | duplicateField field => exact quotes_between field ⟨_, rfl, by decide⟩ ⟨_, rfl, by decide⟩
  | payloadTooLarge structName size limit =>
    have hpayload : IsWording "payload of struct " := ⟨_, rfl, by decide⟩
    have his : IsWording " is " := ⟨_, rfl, by decide⟩
    have habove : IsWording " bytes, above the " := ⟨_, rfl, by decide⟩
    have hend : IsWording " byte limit" := ⟨_, rfl, by decide⟩
    have hlimit := ((quotes_words hend).words_append (isWording_toString limit)).words_append habove
    have hsize := (hlimit.words_append (isWording_toString size)).words_append his
    have hquotes := (hsize.quote_append structName).words_append hpayload
    simp only [← String.append_assoc] at hquotes
    exact hquotes
  | nameCollision first second rustName =>
    have hfields : IsWording "fields " := ⟨_, rfl, by decide⟩
    have hand : IsWording " and " := ⟨_, rfl, by decide⟩
    have hboth : IsWording " both map to Rust name " := ⟨_, rfl, by decide⟩
    have hsecond := ((quotes_quote rustName).words_append hboth).quote_append second
    have hquotes := ((hsecond.words_append hand).quote_append first).words_append hfields
    simp only [← String.append_assoc] at hquotes
    exact hquotes
  | unspellableName structName =>
    exact quotes_between structName ⟨_, rfl, by decide⟩ ⟨_, rfl, by decide⟩

end SchemaError

/-! ### What a diagnostic has without quotes -/

/-- Nothing is a wording. -/
private theorem isWording_empty : IsWording "" := ⟨[], rfl, rfl⟩

/-- A length that is refused for its sign or its value is a wording. -/
theorem DeclarationFault.isWording {d : Declaration} {e : SchemaError} (h : DeclarationFault d e) :
    IsWording e.unquoted := by
  cases h with
  | type h => exact isWording_empty
  | large hne hd hlarge => exact isWording_empty
  | negative hne hd =>
    refine ⟨_, rfl, ?_⟩
    rw [List.all_eq_true, List.forall_mem_cons]
    exact ⟨by decide, fun c hc ↦ isPlain_of_isDigit (hd c hc)⟩
  | zero hne hd hzero =>
    exact ⟨_, rfl, List.all_eq_true.mpr fun c hc ↦ isPlain_of_isDigit (hd c hc)⟩

/-- Of a refused schema a diagnostic has nothing without quotes but digits and minus signs. -/
theorem SchemaFault.isWording {s : List Char} {e : SchemaError} (h : SchemaFault s e) :
    IsWording e.unquoted := by
  cases h with
  | outline h => cases h <;> exact isWording_empty
  | statement hbody htext h => exact isWording_empty
  | declaration hbody htext hd h => exact h.isWording
  | fields hschema h => cases h <;> exact isWording_empty

/-! ### Texts that are not compiled -/

namespace Codegen

/-- Why there is no code for a text: a fault of the schema without its comments, or for Rust one of
the names in it. -/
inductive CodeFault (s : List Char) : Target → SchemaError → Prop
  /-- The text is refused. -/
  | schema {target : Target} {e : SchemaError} (h : SchemaFault s e) : CodeFault s target e
  /-- The struct gets no name. -/
  | structName {structName : String} {package : Option String} {fields : List Field}
      (hschema : Schema s structName package fields) (h : Naming.structName structName = "") :
      CodeFault s .rust (.unspellableName structName)
  /-- Two fields get the same name. -/
  | fieldNames {structName : String} {package : Option String} {fields : List Field} {f g : Field}
      (hschema : Schema s structName package fields) (h : RustModule.ClashFirst fields f g) :
      CodeFault s .rust (.nameCollision f.name g.name (Naming.fieldName g.name))

/-- Of a text that is not compiled a diagnostic has no more without quotes. -/
theorem CodeFault.isWording {s : List Char} {target : Target} {e : SchemaError}
    (h : CodeFault s target e) : IsWording e.unquoted := by
  cases h with
  | schema h => exact h.isWording
  | structName hschema h => exact isWording_empty
  | fieldNames hschema h => exact isWording_empty

/-- A text is not compiled for a fault of it. -/
theorem fault_of_compile {source : String} {options : Options} {e : SchemaError}
    (h : compile source options = .error e) :
    CodeFault (Comment.erase source.toList) options.target e := by
  rw [compile, bind_eq_error_iff] at h
  rcases h with h | ⟨m, hm, h⟩
  · exact .schema (Message.fault_of_parseChars h)
  obtain ⟨hschema, _⟩ := Message.parse_eq_ok_iff.mp hm
  rcases bind_eq_error_iff.mp h with h | ⟨code, _, h⟩
  · obtain ⟨target, sourceName⟩ := options
    cases target with
    | cpp => cases h
    | rust =>
      rcases RustModule.render_cases m sourceName with
        ⟨hempty, hr⟩ | ⟨_, ⟨f, g, hclash, hr⟩ | ⟨_, hr⟩⟩
      · cases hr.symm.trans h
        exact .structName hschema hempty
      · cases hr.symm.trans h
        exact .fieldNames hschema hclash
      · cases hr.symm.trans h
  · cases h

/-- A text that is not compiled has a fault, and the diagnostic for it is one line that quotes the
part of the text that is at fault. -/
theorem diagnostic_of_compile {source : String} {options : Options} {e : SchemaError}
    (h : compile source options = .error e) :
    CodeFault (Comment.erase source.toList) options.target e ∧
      quotedTexts? e.message.toList = some (e.quoted.map String.toList) ∧
      ∀ c ∈ e.message.toList, 0x20 ≤ c.toNat := by
  have hfault := fault_of_compile h
  have hquotes := SchemaError.quotes_message hfault.isWording
  exact ⟨hfault, hquotes.read, hquotes.noControl⟩

/-- What follows the struct has an escape sequence, a quote and a backslash, and is one line. -/
theorem diagnostic_of_escape_sequence :
    ∃ e, compile "struct A\x7bbool a;\x7d;\n\x1b[2J \"\\\n" ⟨.rust, none⟩ = .error e ∧
      e.message =
        "unexpected trailing content after struct definition: \"\\u001b[2J \\\"\\\\\"" ∧
      CodeFault (Comment.erase "struct A\x7bbool a;\x7d;\n\x1b[2J \"\\\n".toList) .rust e ∧
      quotedTexts? e.message.toList = some ["\x1b[2J \"\\".toList] ∧
      ∀ c ∈ e.message.toList, 0x20 ≤ c.toNat := by
  have hparse : Message.parse "struct A\x7bbool a;\x7d;\n\x1b[2J \"\\\n" =
      .error (.trailingContent "\x1b[2J \"\\") := by decide +kernel
  have h : compile "struct A\x7bbool a;\x7d;\n\x1b[2J \"\\\n" ⟨.rust, none⟩ =
      .error (.trailingContent "\x1b[2J \"\\") := by
    rw [compile, hparse]
    rfl
  obtain ⟨hfault, hread, hcontrol⟩ := diagnostic_of_compile h
  exact ⟨_, h, by decide +kernel, hfault, hread, hcontrol⟩

end Codegen

end WireSchema
