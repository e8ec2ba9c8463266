import WireSchema.Proofs.Schema.Declarations
import WireSchema.Proofs.Schema.Outlines
import WireSchema.Proofs.Schema.Payload
import WireSchema.Schema.Parse

/-!
# Accepting schemas

A text is accepted if its outline is found, the declarations in it are read and make fields, and
the fields pass their checks. The first two together find what the grammar says, and the checks
say no more than that the fields make a message, so that the main statement is an equivalence: it
says which texts are accepted, and which descriptor is answered.
-/

namespace WireSchema.Message

open Grammar

/-- A text without comments has the given parts: its outline is found, and the declarations of its
body are read and make the fields. -/
def ReadsTo (s : List Char) (structName : String) (package : Option String)
    (fields : List Field) : Prop :=
  ∃ body declarations, Outline.ofText s = .ok ⟨package, structName, body⟩ ∧
    Declaration.ofBody body = .ok declarations ∧
      declarations.mapM Declaration.toField = .ok fields

/-- What is read is what the grammar says. -/
theorem readsTo_iff {s : List Char} {structName : String} {package : Option String}
    {fields : List Field} :
    ReadsTo s structName package fields ↔ Schema s structName package fields := by
  constructor
  · rintro ⟨body, declarations, ho, hd, hf⟩
    have hbody : Body body fields :=
      body_iff.mpr (Declaration.ofBody_toField_iff.mp ⟨declarations, hd, hf⟩)
    obtain ⟨before, sep, name, w, w₁, w₂, hpre, hsep, hname, hw, hw₁, hw₂, hn, rfl⟩ :=
      Outline.exists_of_ofText_eq_ok ho
    rw [show structName = String.ofList name from hn]
    exact .intro hpre hsep hname hw hbody hw₁ hw₂
  · intro h
    cases h with
    | intro hpre hsep hname hw hbody hw₁ hw₂ =>
      obtain ⟨declarations, hd, hf⟩ := Declaration.ofBody_toField_iff.mpr hbody.pieces
      have ho := Outline.ofText_eq_ok hpre hsep hname hw hbody.noOpen hbody.noClose hw₁ hw₂
      exact ⟨_, declarations, ho, hd, hf⟩

/-- A descriptor is answered exactly if the text reads to it, its fields pass their checks, and its
canonical form and hash are those of the text. -/
theorem parseChars_eq_ok_iff {s : List Char} {m : Message} :
    parseChars s = .ok m ↔
      ReadsTo (Comment.erase s) m.structName m.package m.fields ∧
        checkFields m.structName m.fields = .ok () ∧
        m.canonicalText = String.ofList (Canonical.form s) ∧
        m.hash = Fingerprint.ofText m.canonicalText := by
  simp only [parseChars, bind_eq_ok_iff]
  constructor
  · rintro ⟨⟨package, structName, body⟩, ho, declarations, hd, fields, hf, _, hc, hm⟩
    cases hm
    exact ⟨⟨body, declarations, ho, hd, hf⟩, hc, rfl, rfl⟩
  · rintro ⟨⟨body, declarations, ho, hd, hf⟩, hc, ht, hh⟩
    refine ⟨_, ho, declarations, hd, m.fields, hf, (), hc, ?_⟩
    rw [← ht, ← hh]
    rfl

/-- A text is accepted exactly if it is a schema without its comments, with at least one field, no
two fields of one name, and a payload that a 32-bit word counts; the descriptor has what the schema
says, the canonical form of the text and the hash of that form. -/
theorem parse_eq_ok_iff {source : String} {m : Message} :
    parse source = .ok m ↔
      Schema (Comment.erase source.toList) m.structName m.package m.fields ∧
        m.fields ≠ [] ∧ (m.fields.map Field.name).Nodup ∧ totalSize m.fields ≤ 4294967295 ∧
        m.canonicalText = String.ofList (Canonical.form source.toList) ∧
        m.hash = Fingerprint.ofText m.canonicalText := by
  have hlimit : payloadLimit.toNat = 4294967295 := rfl
  rw [parse, parseChars_eq_ok_iff, readsTo_iff, checkFields_eq_ok_iff, hlimit, and_assoc, and_assoc]

end WireSchema.Message
