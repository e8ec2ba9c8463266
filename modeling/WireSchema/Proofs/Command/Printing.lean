import Mathlib.Data.List.Forall2
import WireSchema.Proofs.Command.Deliveries

/-!
# Runs that print

A run that prints leaves the files alone, so that every input is read from what was there at the
start. Its inputs have nothing to do with each other then: the main statements say that such a run
only succeeds if each input has a text, prints these texts one after the other, and does so if the
output takes them.
-/

namespace WireSchema.Invocation

open Text

/-- The results are printed, and not written to files. -/
def Prints (inv : Invocation) : Prop := inv.json = true ∨ inv.stdout = true

/-- What is printed of a message and its code. -/
def printout (inv : Invocation) (m : Message) (code : String) : String :=
  if inv.json then m.dump ++ "\n" else code

/-- What is printed for an input, unless it does not compile. -/
def textOf (inv : Invocation) (t : Tree) (input : String) : Except CompileError String :=
  (Codegen.compileFile t input (inv.options input)).map fun r ↦ inv.printout r.1 r.2

/-- The invocation with one input. -/
def only (inv : Invocation) (input : String) : Invocation := { inv with inputs := [input] }

variable {inv : Invocation} {devices : Devices} {t : Tree} {s s' : Session} {input text : String}
  {inputs : List String}

/-! ### One input -/

/-- An input is printed. -/
theorem Prints.process_eq (h : inv.Prints) (devices : Devices) (s : Session) (input : String) :
    inv.process devices s input =
      match inv.textOf s.tree input with
      | .error e => (.error e, s)
      | .ok text => devices.print s text := by
  unfold process textOf
  cases Codegen.compileFile s.tree input (inv.options input) with
  | error e => rfl
  | ok r =>
    obtain ⟨m, code⟩ := r
    by_cases hjson : inv.json = true
    · simp [delivery, printout, hjson, Devices.deliver, Except.map]
    · have hstdout : inv.stdout = true := h.resolve_left hjson
      simp [delivery, printout, hjson, hstdout, Devices.deliver, Except.map]

/-- It leaves the files alone. -/
theorem Prints.tree_process (h : inv.Prints) (devices : Devices) (s : Session) (input : String) :
    (inv.process devices s input).2.tree = s.tree := by
  rw [h.process_eq]
  split <;> rfl

/-- A text that is printed is behind what was printed before. -/
theorem print_eq_ok (h : devices.print s text = (.ok (), s')) :
    s' = { s with output := s.output ++ utf8 text } := by
  unfold Devices.print at h
  split at h
  next answer taken htaken =>
    obtain ⟨hanswer, rfl⟩ := Prod.mk.inj h
    cases answer with
    | error e => cases hanswer
    | ok _ => rw [takeUpTo_eq_ok htaken]

/-- Inputs that are printed leave the files alone, up to the first failure and after it. -/
theorem Prints.tree_processAll (h : inv.Prints) (devices : Devices) (s : Session)
    (inputs : List String) : (inv.processAll devices s inputs).2.tree = s.tree := by
  induction inputs generalizing s with
  | nil => rfl
  | cons input inputs ih =>
    have htree := h.tree_process devices s input
    rw [processAll]
    split
    · next hprocess => rwa [hprocess] at htree
    · next hprocess =>
      rw [hprocess] at htree
      rw [ih, htree]

/-- Inputs that are printed have texts, and their texts are printed one after the other. -/
theorem Prints.processAll_eq_ok (h : inv.Prints)
    (hok : inv.processAll devices s inputs = (.ok (), s')) :
    ∃ texts, List.Forall₂ (fun input text ↦ inv.textOf s.tree input = .ok text) inputs texts ∧
      s' = { s with output := s.output ++ (texts.map utf8).flatten } := by
  induction inputs generalizing s with
  | nil =>
    cases hok
    exact ⟨[], .nil, by simp⟩
  | cons input inputs ih =>
    rw [processAll, h.process_eq] at hok
    split at hok
    · cases hok
    · next between hprocess =>
      cases htext : inv.textOf s.tree input with
      | error e => simp [htext] at hprocess
      | ok text =>
        rw [htext] at hprocess
        obtain rfl := print_eq_ok hprocess
        obtain ⟨texts, htexts, rfl⟩ := ih hok
        exact ⟨text :: texts, .cons htext htexts, by simp⟩

/-- Reliable devices print the first of some inputs, and then the others. -/
theorem Prints.processAll_cons (h : inv.Prints) (s : Session) (input : String)
    (inputs : List String) : inv.processAll .reliable s (input :: inputs) =
      match inv.textOf s.tree input with
      | .error e => (.error e, s)
      | .ok text => inv.processAll .reliable { s with output := s.output ++ utf8 text } inputs := by
  rw [processAll, h.process_eq]
  cases inv.textOf s.tree input <;> rfl

/-- Reliable devices print inputs exactly if each of them has a text. -/
theorem Prints.processAll_eq_ok_iff (h : inv.Prints) :
    inv.processAll .reliable s inputs = (.ok (), s') ↔
      ∃ texts, List.Forall₂ (fun input text ↦ inv.textOf s.tree input = .ok text) inputs texts ∧
        s' = { s with output := s.output ++ (texts.map utf8).flatten } := by
  refine ⟨h.processAll_eq_ok, ?_⟩
  rintro ⟨texts, htexts, rfl⟩
  induction inputs generalizing s texts with
  | nil =>
    cases htexts
    simp [processAll]
  | cons input inputs ih =>
    cases htexts with
    | @cons _ text _ texts htext htexts =>
      have hrest := ih (s := { s with output := s.output ++ utf8 text }) texts htexts
      rw [h.processAll_cons, htext, List.map_cons, List.flatten_cons, ← List.append_assoc]
      exact hrest

/-- Reliable devices print inputs exactly if each of them alone is printed. -/
theorem Prints.fst_processAll_eq_ok_iff (h : inv.Prints) :
    (inv.processAll .reliable s inputs).1 = .ok () ↔
      ∀ input ∈ inputs, ∃ text, inv.textOf s.tree input = .ok text := by
  induction inputs generalizing s with
  | nil => simp [processAll]
  | cons input inputs ih =>
    rw [h.processAll_cons, List.forall_mem_cons]
    cases inv.textOf s.tree input with
    | error e => simp
    | ok text => simp [ih]

/-- Nothing that is printed is taken back. -/
theorem Prints.length_output_le (h : inv.Prints) (s : Session) (inputs : List String) :
    s.output.length ≤ (inv.processAll .reliable s inputs).2.output.length := by
  induction inputs generalizing s with
  | nil => exact Nat.le_refl _
  | cons input inputs ih =>
    rw [h.processAll_cons]
    cases inv.textOf s.tree input with
    | error e => exact Nat.le_refl _
    | ok text => exact Nat.le_trans (by simp) (ih { s with output := s.output ++ utf8 text })

/-- An input whose text is not empty is to be seen. -/
theorem Prints.length_output_lt (h : inv.Prints) (htext : inv.textOf s.tree input = .ok text)
    (hne : utf8 text ≠ []) (inputs : List String) :
    s.output.length < (inv.processAll .reliable s (input :: inputs)).2.output.length := by
  have hpos : 0 < (utf8 text).length := List.length_pos_of_ne_nil hne
  have hlater := h.length_output_le { s with output := s.output ++ utf8 text } inputs
  rw [List.length_append] at hlater
  rw [h.processAll_cons, htext]
  exact Nat.lt_of_lt_of_le (by omega) hlater

/-! ### Runs -/

/-- What a run prints that succeeds. -/
theorem Prints.run_eq_ok_iff (h : inv.Prints) :
    inv.run t = (.ok (), s') ↔
      ∃ texts, List.Forall₂ (fun input text ↦ inv.textOf t input = .ok text) inv.inputs texts ∧
        s' = ⟨t, (texts.map utf8).flatten⟩ := by
  rw [run, runOn, h.processAll_eq_ok_iff]
  simp

end WireSchema.Invocation
