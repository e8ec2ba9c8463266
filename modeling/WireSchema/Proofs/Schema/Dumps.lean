import WireSchema.Proofs.Text.Lines
import WireSchema.Proofs.Text.Quoted
import WireSchema.Schema.Dump

/-!
# Descriptors that are told apart by their JSON

No member of a dump has a line feed, whatever its text, so a dump is split into its lines again.
Each line gives its value back: a quoted text and a numeral are those of one text and one number,
and neither is `null`. All fields take the same number of lines, so the lines of one are told from
those of the next. The main statement says that a dump is that of one descriptor only, whatever
texts stand in it.
-/

namespace WireSchema

open Text

/-! ### Values of members -/

private theorem null_ne_quote (s : String) : "null" ≠ quote s := by
  intro h
  have hfirst := congrArg String.toList h
  rw [toList_quote] at hfirst
  cases (List.cons.inj hfirst).1

private theorem null_ne_toString (n : Nat) : "null" ≠ toString n := by
  intro h
  have hdigit := isDigit_of_mem_toString (n := n) 'n'
  rw [← h] at hdigit
  exact absurd (hdigit (by decide)) (by decide)

/-- A member of a given key is written for one value only. -/
theorem jsonMember_inj {key value value' : String} :
    jsonMember key value = jsonMember key value' ↔ value = value' := by
  rw [jsonMember, jsonMember, String.append_right_inj]

/-- A quoted text has no line feed. -/
theorem feed_not_mem_quote (s : String) : '\n' ∉ (quote s).toList :=
  fun h ↦ absurd (le_toNat_of_mem_quote _ h) (by decide)

/-- A numeral has no line feed. -/
theorem feed_not_mem_toString (n : Nat) : '\n' ∉ (toString n).toList :=
  fun h ↦ absurd (isDigit_of_mem_toString _ h) (by decide)

/-- A member has no line feed if its value has none. -/
theorem feed_not_mem_jsonMember {key value : String} (h : '\n' ∉ value.toList) :
    '\n' ∉ (jsonMember key value).toList :=
  not_mem_toList_append (not_mem_toList_append (feed_not_mem_quote key) (by decide)) h

/-! ### Fields -/

namespace Field

/-- The members of a field are those of no other one. -/
theorem dumpMembers_inj {f g : Field} : f.dumpMembers = g.dumpMembers ↔ f = g := by
  constructor
  · intro h
    obtain ⟨type, name, length⟩ := f
    obtain ⟨type', name', length'⟩ := g
    simp only [dumpMembers, List.cons.injEq, String.append_left_inj, jsonMember_inj, quote_inj,
      ScalarType.name_inj, and_true] at h
    obtain ⟨rfl, rfl, hlength⟩ := h
    cases length with
    | none =>
      cases length' with
      | none => rfl
      | some n' => exact absurd hlength (null_ne_toString _)
    | some n =>
      cases length' with
      | none => exact absurd hlength.symm (null_ne_toString _)
      | some n' => rw [toString_toNat_inj.mp hlength]
  · exact congrArg dumpMembers

/-- The members of a field have no line feeds. -/
theorem feed_not_mem_dumpMembers (f : Field) : ∀ line ∈ f.dumpMembers, '\n' ∉ line.toList := by
  simp only [dumpMembers, List.forall_mem_cons]
  refine ⟨not_mem_toList_append (feed_not_mem_jsonMember (feed_not_mem_quote _)) (by decide),
    not_mem_toList_append (feed_not_mem_jsonMember (feed_not_mem_quote _)) (by decide),
    feed_not_mem_jsonMember ?_, by simp⟩
  split
  · decide
  · exact feed_not_mem_toString _

/-- The lines of a field have no line feeds. -/
theorem feed_not_mem_dumpLines (f : Field) (isLast : Bool) :
    ∀ line ∈ f.dumpLines isLast, '\n' ∉ line.toList := by
  have hlast : '\n' ∉ (if isLast then "    \x7d" else "    \x7d,").toList := by
    cases isLast <;> decide
  have hmembers : ∀ line ∈ f.dumpMembers.map ("      " ++ ·), '\n' ∉ line.toList :=
    List.forall_mem_map.mpr fun line h ↦
      not_mem_toList_append (by decide) (feed_not_mem_dumpMembers f line h)
  rw [dumpLines, List.forall_mem_append, List.forall_mem_append]
  exact ⟨⟨by decide, hmembers⟩, List.forall_mem_singleton.mpr hlast⟩

/-- The lines of a field are those of no other one. -/
theorem eq_of_dumpLines_eq {f g : Field} {isLast isLast' : Bool}
    (h : f.dumpLines isLast = g.dumpLines isLast') : f = g := by
  rw [dumpLines, dumpLines] at h
  have hmembers := List.append_cancel_left (List.append_inj_left' h (by simp))
  rw [List.map_inj_right fun _ _ ↦ (String.append_right_inj "      ").mp] at hmembers
  exact dumpMembers_inj.mp hmembers

end Field

/-- A field takes five lines. -/
theorem Field.length_dumpLines (f : Field) (isLast : Bool) : (f.dumpLines isLast).length = 5 := rfl

/-- A comma follows a field if another one does. -/
theorem dumpFields_cons (f : Field) (fs : List Field) :
    dumpFields (f :: fs) = f.dumpLines fs.isEmpty ++ dumpFields fs := by
  cases fs with
  | nil => exact (List.append_nil _).symm
  | cons g fs => rfl

/-- The lines of fields are those of no other ones. -/
theorem dumpFields_inj {fs gs : List Field} : dumpFields fs = dumpFields gs ↔ fs = gs := by
  constructor
  · intro h
    induction fs generalizing gs with
    | nil =>
      cases gs with
      | nil => rfl
      | cons g gs =>
        rw [dumpFields_cons] at h
        cases h
    | cons f fs ih =>
      cases gs with
      | nil =>
        rw [dumpFields_cons] at h
        cases h
      | cons g gs =>
        rw [dumpFields_cons, dumpFields_cons] at h
        obtain ⟨hfirst, hrest⟩ := List.append_inj h (by rw [Field.length_dumpLines,
          Field.length_dumpLines])
        rw [Field.eq_of_dumpLines_eq hfirst, ih hrest]
  · exact congrArg dumpFields

/-- The lines of fields have no line feeds. -/
theorem feed_not_mem_dumpFields (fs : List Field) :
    ∀ line ∈ dumpFields fs, '\n' ∉ line.toList := by
  induction fs with
  | nil => simp [dumpFields]
  | cons f fs ih =>
    rw [dumpFields_cons, List.forall_mem_append]
    exact ⟨f.feed_not_mem_dumpLines _, ih⟩

/-! ### Descriptors -/

namespace Message

/-- A line of a descriptor has no line feed if its value has none. -/
private theorem feed_not_mem_line {key value : String} (h : '\n' ∉ value.toList) :
    '\n' ∉ ("  " ++ jsonMember key value ++ ",").toList :=
  not_mem_toList_append (not_mem_toList_append (by decide) (feed_not_mem_jsonMember h)) (by decide)

/-- The lines of the list of fields have no line feeds. -/
theorem feed_not_mem_dumpFieldList (m : Message) :
    ∀ line ∈ m.dumpFieldList, '\n' ∉ line.toList := by
  have hopen : '\n' ∉ ("  " ++ jsonMember "fields" "[").toList := by decide
  unfold dumpFieldList
  split
  · exact List.forall_mem_singleton.mpr (feed_not_mem_line (by decide))
  · rw [List.forall_mem_append, List.forall_mem_append]
    exact ⟨⟨List.forall_mem_singleton.mpr hopen, feed_not_mem_dumpFields m.fields⟩, by decide⟩

/-- The list of fields is that of no other ones. -/
theorem fields_eq_of_dumpFieldList_eq {m m' : Message} (h : m.dumpFieldList = m'.dumpFieldList) :
    m.fields = m'.fields := by
  unfold dumpFieldList at h
  split at h
  · next hm =>
    split at h
    · next hm' => rw [List.isEmpty_iff.mp hm, List.isEmpty_iff.mp hm']
    · next hm' => simp at h
  · next hm =>
    split at h
    · next hm' => simp at h
    · next hm' => exact dumpFields_inj.mp (List.append_cancel_left (List.append_cancel_right h))

/-- The lines of a descriptor have no line feeds. -/
theorem feed_not_mem_dumpLines (m : Message) : ∀ line ∈ m.dumpLines, '\n' ∉ line.toList := by
  have hhash : '\n' ∉ ("  " ++ jsonMember "msg_hash" (toString m.hash.toNat)).toList :=
    not_mem_toList_append (by decide) (feed_not_mem_jsonMember (feed_not_mem_toString _))
  rw [dumpLines, List.forall_mem_append, List.forall_mem_append]
  refine ⟨⟨?_, m.feed_not_mem_dumpFieldList⟩, ?_⟩
  · simp only [List.forall_mem_cons]
    refine ⟨by decide, feed_not_mem_line (feed_not_mem_quote _), feed_not_mem_line ?_, by simp⟩
    split
    · decide
    · exact feed_not_mem_quote _
  · simp only [List.forall_mem_cons]
    exact ⟨feed_not_mem_line (feed_not_mem_quote _), hhash, by decide, by simp⟩

/-- The lines of a descriptor are those of no other one. -/
theorem dumpLines_inj {m m' : Message} : m.dumpLines = m'.dumpLines ↔ m = m' := by
  constructor
  · intro h
    obtain ⟨structName, package, fields, text, hash⟩ := m
    obtain ⟨structName', package', fields', text', hash'⟩ := m'
    rw [dumpLines, dumpLines] at h
    obtain ⟨hfront, hback⟩ := List.append_inj' h (by simp)
    obtain ⟨hfront, hfields⟩ := List.append_inj hfront (by simp)
    simp only [List.cons.injEq, String.append_left_inj, String.append_right_inj, jsonMember_inj,
      quote_inj, toString_toNat_inj, and_true, true_and] at hfront hback
    obtain ⟨rfl, hpackage⟩ := hfront
    obtain ⟨rfl, rfl⟩ := hback
    obtain rfl := fields_eq_of_dumpFieldList_eq hfields
    cases package with
    | none =>
      cases package' with
      | none => rfl
      | some p' => exact absurd hpackage (null_ne_quote p')
    | some p =>
      cases package' with
      | none => exact absurd hpackage.symm (null_ne_quote p)
      | some p' => rw [quote_inj.mp hpackage]
  · exact congrArg dumpLines

/-- A dump is the dump of one descriptor only. -/
theorem dump_inj {m m' : Message} : m.dump = m'.dump ↔ m = m' := by
  rw [dump, dump, joinLines_inj (by simp [dumpLines]) (by simp [dumpLines])
    m.feed_not_mem_dumpLines m'.feed_not_mem_dumpLines, dumpLines_inj]

end Message

end WireSchema
