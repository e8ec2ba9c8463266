import WireSchema.Proofs.Codegen.Outcome

/-!
# Agreement of generated code

The code of a message says more than once what goes over the wire, and there is code for two
languages. `Describes` says of a text that each of its statements is what the message asks for. The
main statements are that all generated code describes its message, so that encoding and decoding
agree within each text and the two languages with each other, and that a text describes no other
wire format.
-/

namespace WireSchema

open Text Codegen

/-- Every statement of a Rust module is what the message asks for. -/
structure RustModule.Describes (code : String) (m : Message) : Prop where
  /-- There is one struct. -/
  structNames : (read code).structNames = [Naming.structName m.structName]
  /-- The members are the fields, in order. -/
  members : (read code).members = m.fields.map fun f ↦ ⟨f.type, fieldName f, f.length⟩
  /-- The hash is that of the message. -/
  hashes : (read code).hashes = [upperHex 8 m.hash.toNat]
  /-- The default value has every field, in order, with the zero of its type. -/
  initials : (read code).initials =
    m.fields.map fun f ↦ (fieldName f, zeroLiteral f.type, f.length)
  /-- Every field is encoded, in order, as a scalar or as an array. -/
  encoded : (read code).encoded = m.fields.map fun f ↦ (fieldName f, f.length.isSome)
  /-- Every field is decoded, in order, as a scalar or as an array. -/
  decoded : (read code).decoded = m.fields.map fun f ↦ (fieldName f, f.length.isSome)

/-- Every statement of a C++ header is what the message asks for. -/
structure CppHeader.Describes (code : String) (m : Message) : Prop where
  /-- There is one struct. -/
  structNames : (read code).structNames = [m.structName]
  /-- The members are the fields, in order. -/
  members : (read code).members = m.fields
  /-- The hash is that of the message. -/
  hashes : (read code).hashes = [upperHex 8 m.hash.toNat]
  /-- Every field is encoded, in order, with its length. -/
  encoded : (read code).encoded = m.fields.map fun f ↦ (f.name, f.length)
  /-- Every field is decoded, in order, with its length. -/
  decoded : (read code).decoded = m.fields.map fun f ↦ (f.name, f.length)

namespace Codegen

variable {source : String} {m : Message} {sourceName : Option String}

/-- A Rust module describes its message. -/
theorem rust_describes (h : Message.parse source = .ok m) {code : String}
    (hcode : generate m ⟨.rust, sourceName⟩ = .ok code) : RustModule.Describes code m := by
  obtain ⟨hstruct, hfields⟩ := (Message.parse_eq_ok_iff.mp h).1.isName_names
  have hread := RustModule.read_of_render hstruct hfields hcode
  refine ⟨?_, ?_, ?_, ?_, ?_, ?_⟩ <;> rw [hread] <;>
    simp [RustModule.reading, RustModule.members, RustModule.Member.declared, RustModule.fieldName]

/-- A C++ header describes its message. -/
theorem cpp_describes (h : Message.parse source = .ok m) (sourceName : Option String) :
    CppHeader.Describes (CppHeader.render m sourceName) m := by
  obtain ⟨hstruct, hfields⟩ := (Message.parse_eq_ok_iff.mp h).1.isName_names
  have hread := CppHeader.read_render (isNameChar_of_mem_name hstruct)
    (fun f hf ↦ isNameChar_of_mem_name (hfields f hf)) sourceName
  refine ⟨?_, ?_, ?_, ?_, ?_⟩ <;> rw [hread] <;> rfl

/-- The generated code of an accepted schema describes its message in both languages: field by
field, they agree on the types, on what is an array, and on the lengths, and they have the same
eight digits of the hash. -/
theorem agreement_of_parse (h : Message.parse source = .ok m) (sourceName : Option String)
    {code : String} (hcode : generate m ⟨.rust, sourceName⟩ = .ok code) :
    ∃ header, generate m ⟨.cpp, sourceName⟩ = .ok header ∧
      RustModule.Describes code m ∧ CppHeader.Describes header m ∧
      ((RustModule.read code).members.map fun f ↦ (f.type, f.length)) =
        ((CppHeader.read header).members.map fun f ↦ (f.type, f.length)) ∧
      ((RustModule.read code).encoded.map Prod.snd) =
        ((CppHeader.read header).encoded.map fun x ↦ x.2.isSome) ∧
      ((RustModule.read code).decoded.map Prod.snd) =
        ((CppHeader.read header).decoded.map fun x ↦ x.2.isSome) ∧
      ∃ digits, (RustModule.read code).hashes = [digits] ∧
        (CppHeader.read header).hashes = [digits] ∧ digits.length = 8 ∧
          (∀ c ∈ digits, isUpperHexDigit c = true) ∧ upperHexValue? digits = some m.hash.toNat := by
  have hrust := rust_describes h hcode
  have hcpp := cpp_describes h sourceName
  refine ⟨_, rfl, hrust, hcpp, ?_, ?_, ?_, upperHex 8 m.hash.toNat, hrust.hashes, hcpp.hashes,
    length_upperHex _ _, isUpperHexDigit_of_mem_upperHex, upperHexValue?_word m.hash⟩
  · rw [hrust.members, hcpp.members, List.map_map]
    rfl
  · rw [hrust.encoded, hcpp.encoded, List.map_map, List.map_map]
    rfl
  · rw [hrust.decoded, hcpp.decoded, List.map_map, List.map_map]
    rfl

/-- A command to a lamp is described by its code in both languages. -/
theorem agreement_ledCommand : ∃ code header,
    generate Catalog.ledCommand ⟨.rust, none⟩ = .ok code ∧
      generate Catalog.ledCommand ⟨.cpp, none⟩ = .ok header ∧
      RustModule.Describes code Catalog.ledCommand ∧
      CppHeader.Describes header Catalog.ledCommand := by
  obtain ⟨code, hcode⟩ : ∃ code, RustModule.render Catalog.ledCommand none = .ok code :=
    ⟨_, RustModule.render_of_nodup (by decide +kernel) (by decide +kernel)⟩
  obtain ⟨header, hheader, hrust, hcpp, _⟩ :=
    agreement_of_parse Catalog.parse_ledCommandText none hcode
  exact ⟨code, header, hcode, hheader, hrust, hcpp⟩

end Codegen

/-! ### What code determines -/

/-- A Rust module describes one struct name, one list of field names, types and lengths, and one
hash. -/
theorem RustModule.Describes.unique {code : String} {m m' : Message} (h : Describes code m)
    (h' : Describes code m') :
    Naming.structName m.structName = Naming.structName m'.structName ∧
      m.fields.map fieldName = m'.fields.map fieldName ∧
      m.fields.map Field.type = m'.fields.map Field.type ∧
      m.fields.map Field.length = m'.fields.map Field.length ∧ m.hash = m'.hash := by
  have hname := List.singleton_inj.mp (h.structNames.symm.trans h'.structNames)
  have hhash := eq_of_upperHex_eq (List.singleton_inj.mp (h.hashes.symm.trans h'.hashes))
  have hmembers := h.members.symm.trans h'.members
  refine ⟨hname, ?_, ?_, ?_, hhash⟩
  · simpa [Function.comp_def] using congrArg (List.map Field.name) hmembers
  · simpa [Function.comp_def] using congrArg (List.map Field.type) hmembers
  · simpa [Function.comp_def] using congrArg (List.map Field.length) hmembers

/-- A C++ header describes one struct name, one list of fields and one hash. -/
theorem CppHeader.Describes.unique {code : String} {m m' : Message} (h : Describes code m)
    (h' : Describes code m') :
    m.structName = m'.structName ∧ m.fields = m'.fields ∧ m.hash = m'.hash :=
  ⟨List.singleton_inj.mp (h.structNames.symm.trans h'.structNames), h.members.symm.trans h'.members,
    eq_of_upperHex_eq (List.singleton_inj.mp (h.hashes.symm.trans h'.hashes))⟩

namespace Codegen

/-- Messages with the same C++ header have the same struct name, fields and hash; messages with the
same Rust module have the same names in Rust, types, lengths and hash. -/
theorem shape_eq_of_generate {source source' : String} {m m' : Message}
    (h : Message.parse source = .ok m) (h' : Message.parse source' = .ok m')
    (sourceName : Option String) :
    (generate m ⟨.cpp, sourceName⟩ = generate m' ⟨.cpp, sourceName⟩ →
        m.structName = m'.structName ∧ m.fields = m'.fields ∧ m.hash = m'.hash) ∧
      ∀ code, generate m ⟨.rust, sourceName⟩ = .ok code →
        generate m' ⟨.rust, sourceName⟩ = .ok code →
          Naming.structName m.structName = Naming.structName m'.structName ∧
            m.fields.map RustModule.fieldName = m'.fields.map RustModule.fieldName ∧
            m.fields.map Field.type = m'.fields.map Field.type ∧
            m.fields.map Field.length = m'.fields.map Field.length ∧ m.hash = m'.hash := by
  constructor
  · intro hcode
    have hdescribes' := cpp_describes h' sourceName
    rw [← Except.ok.inj hcode] at hdescribes'
    exact (cpp_describes h sourceName).unique hdescribes'
  · intro code hcode hcode'
    exact (rust_describes h hcode).unique (rust_describes h' hcode')

/-- Messages that differ only in their package have the same code. -/
theorem shape_eq_of_packages : ∃ m m' code,
    Message.parse "package a;struct A{uint8_t b;};" = .ok m ∧
      Message.parse "struct A{uint8_t b;};" = .ok m' ∧ m ≠ m' ∧
      generate m ⟨.rust, none⟩ = .ok code ∧ generate m' ⟨.rust, none⟩ = .ok code ∧
      m.structName = m'.structName ∧ m.fields = m'.fields ∧ m.hash = m'.hash := by
  have h : Message.parse "package a;struct A{uint8_t b;};" =
      .ok (Message.compose "A" (some "a") [⟨.uint8, "b", none⟩]) := by decide +kernel
  have h' : Message.parse "struct A{uint8_t b;};" =
      .ok (Message.compose "A" none [⟨.uint8, "b", none⟩]) := by decide +kernel
  obtain ⟨code, hcode⟩ : ∃ code,
      RustModule.render (Message.compose "A" none [⟨.uint8, "b", none⟩]) none = .ok code :=
    ⟨_, RustModule.render_of_nodup (by decide +kernel) (by decide +kernel)⟩
  exact ⟨_, _, code, h, h', by decide, hcode, hcode, (shape_eq_of_generate h h' none).1 rfl⟩

end Codegen

end WireSchema
