import WireSchema.Catalog
import WireSchema.Codegen.Generate
import WireSchema.Proofs.Codegen.CppStatements
import WireSchema.Proofs.Codegen.RustStatements
import WireSchema.Proofs.Schema.Acceptance
import WireSchema.Proofs.Schema.Clash

/-!
# When code is generated

There always is C++ code. For Rust the struct name is looked at first, and is refused if nothing is
left of it; then the field names, which are refused at the first clash. The main statements say what
generating code for an accepted schema comes to, and which names the code has: those of the members
are different identifiers, while that of the struct has name characters but may start with a digit.
-/

namespace WireSchema

open Text

namespace RustModule

variable {m : Message} {sourceName : Option String}

/-- The name that a field gets. -/
def fieldName (f : Field) : String := Naming.fieldName f.name

/-- Two fields are the first clash: they get the same name, and no two of the fields before the
second one do. -/
def ClashFirst (fields : List Field) (f g : Field) : Prop :=
  ∃ before between after, fields = before ++ f :: (between ++ g :: after) ∧
    fieldName f = fieldName g ∧ ((before ++ f :: between).map fieldName).Nodup

/-- The names of the members are those of the fields. -/
theorem map_name_members (m : Message) : (members m).map Member.name = m.fields.map fieldName := by
  rw [members, List.map_map]
  rfl

/-- Two fields clash first exactly if not all fields get different names. -/
theorem exists_clashFirst_iff {fields : List Field} :
    (∃ f g, ClashFirst fields f g) ↔ ¬(fields.map fieldName).Nodup := by
  rw [← firstClash?_eq_none_iff, ← ne_eq, Option.ne_none_iff_exists']
  constructor
  · rintro ⟨f, g, h⟩
    exact ⟨(f, g), firstClash?_eq_some_iff.mpr h⟩
  · rintro ⟨⟨f, g⟩, h⟩
    exact ⟨f, g, firstClash?_eq_some_iff.mp h⟩

/-! ### The answers -/

private theorem structName?_of_ne (h : Naming.structName m.structName ≠ "") :
    structName? m = .ok (Naming.structName m.structName) := by
  have hempty : (Naming.structName m.structName).isEmpty = false := by simpa using h
  rw [structName?, hempty]
  rfl

/-- Nothing is generated for a struct without a name. -/
theorem render_of_unspellable (h : Naming.structName m.structName = "") :
    render m sourceName = .error (.unspellableName m.structName) := by
  rw [render, structName?, h]
  rfl

/-- Nothing is generated for fields that clash. -/
theorem render_of_clash (hne : Naming.structName m.structName ≠ "") {f g : Field}
    (h : ClashFirst m.fields f g) :
    render m sourceName = .error (.nameCollision f.name g.name (fieldName g)) := by
  have hclash : firstClash? Member.name (members m) =
      some (⟨fieldName f, f⟩, ⟨fieldName g, g⟩) := by
    rw [members, firstClash?_map]
    exact congrArg (Option.map _) (firstClash?_eq_some_iff.mpr h)
  rw [render, structName?_of_ne hne, members?, hclash]
  rfl

/-- A module is generated for fields with different names. -/
theorem render_of_nodup (hne : Naming.structName m.structName ≠ "")
    (h : (m.fields.map fieldName).Nodup) : render m sourceName =
      .ok (joinLines (lines m sourceName (Naming.structName m.structName) (members m))) := by
  have hclash : firstClash? Member.name (members m) = none := by
    rwa [firstClash?_eq_none_iff, map_name_members]
  rw [render, structName?_of_ne hne, members?, hclash]
  rfl

/-- The struct gets no name, or two fields clash, or there is a module. -/
theorem render_cases (m : Message) (sourceName : Option String) :
    (Naming.structName m.structName = "" ∧
        render m sourceName = .error (.unspellableName m.structName)) ∨
      Naming.structName m.structName ≠ "" ∧
        ((∃ f g, ClashFirst m.fields f g ∧
            render m sourceName = .error (.nameCollision f.name g.name (fieldName g))) ∨
          (m.fields.map fieldName).Nodup ∧ render m sourceName =
            .ok (joinLines (lines m sourceName (Naming.structName m.structName) (members m)))) := by
  by_cases hempty : Naming.structName m.structName = ""
  · exact .inl ⟨hempty, render_of_unspellable hempty⟩
  · refine .inr ⟨hempty, ?_⟩
    by_cases hnodup : (m.fields.map fieldName).Nodup
    · exact .inr ⟨hnodup, render_of_nodup hempty hnodup⟩
    · obtain ⟨f, g, hclash⟩ := exists_clashFirst_iff.mpr hnodup
      exact .inl ⟨f, g, hclash, render_of_clash hempty hclash⟩

/-- A struct name is refused exactly if it is that of the message and leaves nothing. -/
theorem render_eq_unspellable_iff {name : String} :
    render m sourceName = .error (.unspellableName name) ↔
      name = m.structName ∧ Naming.structName m.structName = "" := by
  constructor
  · intro h
    rcases render_cases m sourceName with ⟨hempty, hr⟩ | ⟨_, ⟨f, g, _, hr⟩ | ⟨_, hr⟩⟩ <;>
      rw [hr] at h <;> cases h
    exact ⟨rfl, hempty⟩
  · rintro ⟨rfl, hempty⟩
    exact render_of_unspellable hempty

/-- Field names are refused exactly if the struct gets a name and they are those of the fields that
clash first. -/
theorem render_eq_collision_iff {first second rustName : String} :
    render m sourceName = .error (.nameCollision first second rustName) ↔
      Naming.structName m.structName ≠ "" ∧ ∃ f g, ClashFirst m.fields f g ∧
        first = f.name ∧ second = g.name ∧ rustName = fieldName g := by
  constructor
  · intro h
    rcases render_cases m sourceName with ⟨_, hr⟩ | ⟨hne, ⟨f, g, hclash, hr⟩ | ⟨_, hr⟩⟩ <;>
      rw [hr] at h <;> cases h
    exact ⟨hne, f, g, hclash, rfl, rfl, rfl⟩
  · rintro ⟨hne, f, g, hclash, rfl, rfl, rfl⟩
    exact render_of_clash hne hclash

/-- A module is generated exactly if the struct gets a name and the fields get different ones. -/
theorem render_eq_ok_iff {code : String} : render m sourceName = .ok code ↔
    Naming.structName m.structName ≠ "" ∧ (m.fields.map fieldName).Nodup ∧
      code = joinLines (lines m sourceName (Naming.structName m.structName) (members m)) := by
  constructor
  · intro h
    rcases render_cases m sourceName with ⟨_, hr⟩ | ⟨hne, ⟨f, g, _, hr⟩ | ⟨hnodup, hr⟩⟩ <;>
      rw [hr] at h <;> cases h
    exact ⟨hne, hnodup, rfl⟩
  · rintro ⟨hne, hnodup, rfl⟩
    exact render_of_nodup hne hnodup

/-- A module says the names that the message gets, its hash and its fields. -/
theorem read_of_render {code : String} (hstruct : isName m.structName.toList = true)
    (hfields : ∀ f ∈ m.fields, isName f.name.toList = true)
    (h : render m sourceName = .ok code) :
    read code = reading (Naming.structName m.structName) m.hash (members m) := by
  obtain ⟨hne, _, rfl⟩ := render_eq_ok_iff.mp h
  refine read_joinLines (isStructName_structName hstruct hne) ?_ m sourceName
  rw [members, List.forall_mem_map]
  exact fun f hf ↦ isNameChar_of_mem_name (Naming.isIdentifier_fieldName (hfields f hf)).isName

end RustModule

namespace Codegen

open RustModule

/-- What generating code for a message comes to. -/
structure Outcome (m : Message) (sourceName : Option String) : Prop where
  /-- There always is C++ code. -/
  cpp : ∃ code, generate m ⟨.cpp, sourceName⟩ = .ok code
  /-- The struct name is refused for Rust exactly if it has low lines only. -/
  unspellable : ∀ name, generate m ⟨.rust, sourceName⟩ = .error (.unspellableName name) ↔
    name = m.structName ∧ ∀ c ∈ m.structName.toList, c = '_'
  /-- Otherwise field names are refused exactly if two of them are the same in Rust. -/
  collides : (∃ first second rustName,
      generate m ⟨.rust, sourceName⟩ = .error (.nameCollision first second rustName)) ↔
    (∃ c ∈ m.structName.toList, c ≠ '_') ∧ ¬(m.fields.map fieldName).Nodup
  /-- The names that are refused are those of the first clash. -/
  collision : ∀ first second rustName,
    generate m ⟨.rust, sourceName⟩ = .error (.nameCollision first second rustName) →
      ∃ f g, ClashFirst m.fields f g ∧ first = f.name ∧ second = g.name ∧ rustName = fieldName g
  /-- Otherwise there is Rust code, and the names of its members are different identifiers. -/
  rust : (∃ c ∈ m.structName.toList, c ≠ '_') → (m.fields.map fieldName).Nodup →
    ∃ code, generate m ⟨.rust, sourceName⟩ = .ok code ∧
      (read code).members.map Field.name = m.fields.map fieldName ∧
      ((read code).members.map Field.name).Nodup ∧
      ∀ name ∈ (read code).members.map Field.name, Naming.IsIdentifier name

/-- Code for an accepted schema is refused exactly for the struct name or for the first clash of
the field names in Rust, and has different identifiers as the names of its members. -/
theorem outcome_of_parse {source : String} {m : Message} (h : Message.parse source = .ok m)
    (sourceName : Option String) : Outcome m sourceName := by
  obtain ⟨hschema, _⟩ := Message.parse_eq_ok_iff.mp h
  obtain ⟨hstruct, hfields⟩ := hschema.isName_names
  have hempty := Naming.structName_eq_empty_iff hstruct
  have hnonempty : Naming.structName m.structName ≠ "" ↔ ∃ c ∈ m.structName.toList, c ≠ '_' := by
    simp [hempty]
  have hgenerate : generate m ⟨.rust, sourceName⟩ = render m sourceName := rfl
  refine
    { cpp := ⟨_, rfl⟩
      unspellable := fun name ↦ ?_
      collides := ?_
      collision := fun first second rustName hcollision ↦ (render_eq_collision_iff.mp hcollision).2
      rust := fun hne hnodup ↦ ?_ }
  · rw [hgenerate, render_eq_unspellable_iff, hempty]
  · rw [← hnonempty, ← exists_clashFirst_iff]
    constructor
    · rintro ⟨first, second, rustName, hcollision⟩
      obtain ⟨hne, f, g, hclash, _⟩ := render_eq_collision_iff.mp hcollision
      exact ⟨hne, f, g, hclash⟩
    · rintro ⟨hne, f, g, hclash⟩
      exact ⟨_, _, _, render_of_clash hne hclash⟩
  · obtain ⟨code, hrender⟩ : ∃ code, render m sourceName = .ok code :=
      ⟨_, render_of_nodup (hnonempty.mpr hne) hnodup⟩
    have hnames : (read code).members.map Field.name = m.fields.map fieldName := by
      rw [read_of_render hstruct hfields hrender, reading, List.map_map]
      exact map_name_members m
    refine ⟨code, hrender, hnames, ?_, ?_⟩
    · rwa [hnames]
    · rw [hnames, List.forall_mem_map]
      exact fun f hf ↦ Naming.isIdentifier_fieldName (hfields f hf)

/-- The schema of a message with names that need care describes it. -/
theorem parse_writerText : Message.parse Catalog.writerText = .ok Catalog.writer :=
  (congrArg Message.parseChars (Text.toList_joinLines _)).trans (by decide +kernel)

/-- Its names are escaped. -/
theorem outcome_writer : Message.parse Catalog.writerText = .ok Catalog.writer ∧
    ∃ code, generate Catalog.writer ⟨.rust, none⟩ = .ok code ∧
      (read code).members.map Field.name = ["__", "type_", "self_"] := by
  have hnames : Catalog.writer.fields.map fieldName = ["__", "type_", "self_"] := by decide +kernel
  obtain ⟨code, hcode, hread, _⟩ := (outcome_of_parse parse_writerText none).rust
    ⟨'W', by decide +kernel, by decide⟩ (by rw [hnames]; decide)
  exact ⟨parse_writerText, code, hcode, hread.trans hnames⟩

/-! ### The name of the struct -/

/-- The struct of an accepted schema is refused for Rust exactly if its name has low lines only.
Otherwise the name in the code has name characters and no meaning of its own, so that it is an
identifier exactly if the first character of the schema name apart from low lines is no digit. -/
theorem structName_of_parse {source : String} {m : Message} (h : Message.parse source = .ok m)
    (sourceName : Option String) :
    ((∃ name, generate m ⟨.rust, sourceName⟩ = .error (.unspellableName name)) ↔
        ∀ c ∈ m.structName.toList, c = '_') ∧
      ∀ code, generate m ⟨.rust, sourceName⟩ = .ok code →
        ∃ name c, (read code).structNames = [name] ∧ name = Naming.structName m.structName ∧
          m.structName.toList.find? (· != '_') = some c ∧
            (∀ d ∈ name.toList, isNameChar d = true) ∧
            name ∉ "_" :: (Naming.strictKeywords ++ Naming.futureKeywords) ∧
            (Naming.IsIdentifier name ↔ c.isDigit = false) := by
  obtain ⟨hschema, _⟩ := Message.parse_eq_ok_iff.mp h
  obtain ⟨hstruct, hfields⟩ := hschema.isName_names
  have hempty := Naming.structName_eq_empty_iff hstruct
  have hgenerate : generate m ⟨.rust, sourceName⟩ = render m sourceName := rfl
  rw [hgenerate]
  constructor
  · simp [render_eq_unspellable_iff, hempty]
  · intro code hcode
    obtain ⟨hne, _⟩ := render_eq_ok_iff.mp hcode
    obtain ⟨c, hc⟩ : ∃ c, m.structName.toList.find? (· != '_') = some c := by
      rw [← Option.ne_none_iff_exists', ne_eq, List.find?_eq_none]
      simpa [hempty] using hne
    refine ⟨_, c, ?_, rfl, hc, Naming.isNameChar_of_mem_structName hstruct, ?_, ?_⟩
    · rw [read_of_render hstruct hfields hcode]
      rfl
    · exact fun hm ↦ Naming.escape_ne_of_mem hm rfl
    · rw [Naming.isIdentifier_structName_iff hstruct, hc]
      simp

/-- The name of a struct may become a word of Rust, which is escaped. -/
theorem structName_self : ∃ m code, Message.parse "struct self{bool b;};" = .ok m ∧
    generate m ⟨.rust, none⟩ = .ok code ∧ (read code).structNames = ["Self_"] ∧
      Naming.IsIdentifier "Self_" := by
  have hparse : Message.parse "struct self{bool b;};" =
      .ok (Message.compose "self" none [⟨.bool, "b", none⟩]) := by decide +kernel
  obtain ⟨code, hcode⟩ : ∃ code, render (Message.compose "self" none [⟨.bool, "b", none⟩]) none =
      .ok code := ⟨_, render_of_nodup (by decide +kernel) (by decide +kernel)⟩
  obtain ⟨name, c, hread, hname, hc, _, _, hid⟩ := (structName_of_parse hparse none).2 code hcode
  have hself : Naming.structName "self" = "Self_" := by decide +kernel
  have hs : "self".toList.find? (· != '_') = some 's' := by decide
  obtain rfl : name = "Self_" := hname.trans hself
  obtain rfl : c = 's' := Option.some.inj (hc.symm.trans hs)
  exact ⟨_, code, hparse, hcode, hread, hid.mpr (by decide)⟩

/-- The name of a struct may become a number, which is neither refused nor an identifier. -/
theorem structName_of_lowLine_digit : ∃ m code,
    Message.parse "struct _1{uint8_t a;};" = .ok m ∧ generate m ⟨.rust, none⟩ = .ok code ∧
      (read code).structNames = ["1"] ∧ isName "1".toList = false ∧ ¬Naming.IsIdentifier "1" := by
  have hparse : Message.parse "struct _1{uint8_t a;};" =
      .ok (Message.compose "_1" none [⟨.uint8, "a", none⟩]) := by decide +kernel
  obtain ⟨code, hcode⟩ : ∃ code, render (Message.compose "_1" none [⟨.uint8, "a", none⟩]) none =
      .ok code := ⟨_, render_of_nodup (by decide +kernel) (by decide +kernel)⟩
  refine ⟨_, code, hparse, hcode, ?_, by decide, fun hid ↦ absurd hid.isName (by decide)⟩
  rw [read_of_render (by decide +kernel) (by decide +kernel) hcode]
  decide +kernel

end Codegen

end WireSchema
