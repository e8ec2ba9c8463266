import WireSchema.Proofs.Codegen.Identifiers

/-!
# What name styles keep

A name is the same letters and digits in every style. Snake case only puts low lines before words
that start with a capital letter, and none where a low line stands already or nothing does; Pascal
case takes all low lines away. The main statement says so for both styles, and that a name in snake
case is not changed by snake case.
-/

namespace WireSchema.Naming

open Text

variable {s : List Char}

/-! ### What snake case keeps -/

private theorem isUpper_of_mem_snakeCaseAfter (h : ∀ c ∈ s, isNameChar c = true)
    (before : Option Char) : ∀ c ∈ snakeCaseAfter before s, isUpper c = false := by
  induction s generalizing before with
  | nil => simp [snakeCaseAfter]
  | cons c s ih =>
    obtain ⟨hc, hs⟩ := List.forall_mem_cons.mp h
    have hmark : ∀ d ∈ wordMark before c s, isUpper d = false := by
      intro d hd
      rw [eq_lowLine_of_mem_wordMark hd]
      decide
    rw [snakeCaseAfter_cons hc, List.forall_mem_append, List.forall_mem_cons]
    exact ⟨hmark, isUpper_toLower hc, ih hs (some c)⟩

/-- A name has no capital letters in snake case. -/
theorem isUpper_of_mem_snakeCase (h : ∀ c ∈ s, isNameChar c = true) :
    ∀ c ∈ snakeCase s, isUpper c = false :=
  isUpper_of_mem_snakeCaseAfter h none

private theorem snakeCaseAfter_of_not_isUpper (h : ∀ c ∈ s, isUpper c = false)
    (before : Option Char) : snakeCaseAfter before s = s := by
  induction s generalizing before with
  | nil => rfl
  | cons c s ih =>
    obtain ⟨hc, hs⟩ := List.forall_mem_cons.mp h
    rw [snakeCaseAfter, hc, if_neg Bool.false_ne_true, ih hs]

/-- A name in snake case stays in snake case. -/
theorem snakeCase_snakeCase (h : ∀ c ∈ s, isNameChar c = true) :
    snakeCase (snakeCase s) = snakeCase s :=
  snakeCaseAfter_of_not_isUpper (isUpper_of_mem_snakeCase h) none

private theorem filter_snakeCaseAfter (h : ∀ c ∈ s, isNameChar c = true) (before : Option Char) :
    (snakeCaseAfter before s).filter (· != '_') = (s.map Char.toLower).filter (· != '_') := by
  induction s generalizing before with
  | nil => rfl
  | cons c s ih =>
    obtain ⟨hc, hs⟩ := List.forall_mem_cons.mp h
    have hmark : (wordMark before c s).filter (· != '_') = [] := by
      rcases wordMark_cases before c s with hm | ⟨hm, _⟩ <;> rw [hm] <;> rfl
    rw [snakeCaseAfter_cons hc, List.filter_append, hmark, List.nil_append, List.map_cons,
      List.filter_cons, List.filter_cons, ih hs]

/-- Apart from its low lines, a name in snake case is the name in lower case. -/
theorem filter_snakeCase (h : ∀ c ∈ s, isNameChar c = true) :
    (snakeCase s).filter (· != '_') = (lowerText s).filter (· != '_') := by
  rw [lowerText_of_isNameChar h]
  exact filter_snakeCaseAfter h none

/-! ### The low lines of snake case -/

/-- Where no word starts, a name starts with a low line in snake case only if it did. -/
theorem head?_snakeCaseAfter_eq_lowLine_iff (h : ∀ c ∈ s, isNameChar c = true)
    {before : Option Char} (hb : ∀ after, startsWord before after = false) :
    (snakeCaseAfter before s).head? = some '_' ↔ s.head? = some '_' := by
  cases s with
  | nil => rfl
  | cons c s =>
    have hc := h c List.mem_cons_self
    rw [snakeCaseAfter_cons hc, wordMark_of_not_startsWord (hb s), List.nil_append,
      List.head?_cons, List.head?_cons, Option.some_inj, Option.some_inj,
      toLower_eq_lowLine_iff hc]

/-- Two low lines are next to each other at the start of a text, or behind its first character. -/
theorem doubled_cons_iff {c : Char} :
    ['_', '_'] <:+: c :: s ↔ c = '_' ∧ s.head? = some '_' ∨ ['_', '_'] <:+: s := by
  have hstart : ['_', '_'] <+: c :: s ↔ c = '_' ∧ s.head? = some '_' := by
    cases s <;> simp [List.cons_prefix_cons, eq_comm]
  rw [List.infix_cons_iff, hstart]

private theorem doubled_snakeCaseAfter_iff (h : ∀ c ∈ s, isNameChar c = true)
    (before : Option Char) :
    ['_', '_'] <:+: snakeCaseAfter before s ↔ ['_', '_'] <:+: s := by
  induction s generalizing before with
  | nil => rfl
  | cons c s ih =>
    obtain ⟨hc, hs⟩ := List.forall_mem_cons.mp h
    -- Behind a low line no word is marked, so the low lines there are those of the name.
    have hnext (hlow : c = '_') :
        (snakeCaseAfter (some c) s).head? = some '_' ↔ s.head? = some '_' :=
      head?_snakeCaseAfter_eq_lowLine_iff hs (by simp [startsWord, hlow])
    have hrest : ['_', '_'] <:+: c.toLower :: snakeCaseAfter (some c) s ↔
        ['_', '_'] <:+: c :: s := by
      rw [doubled_cons_iff, doubled_cons_iff, toLower_eq_lowLine_iff hc, ih hs,
        and_congr_right hnext]
    rw [snakeCaseAfter_cons hc]
    rcases wordMark_cases before c s with hm | ⟨hm, hu, _⟩ <;> rw [hm]
    · exact hrest
    · have hlower : c.toLower ≠ '_' := by
        rw [Ne, toLower_eq_lowLine_iff hc]
        rintro rfl
        revert hu
        decide
      rw [List.singleton_append, doubled_cons_iff, hrest]
      simp [hlower]

/-- Low lines are next to each other in snake case only where they were. -/
theorem doubled_snakeCase_iff (h : ∀ c ∈ s, isNameChar c = true) :
    ['_', '_'] <:+: snakeCase s ↔ ['_', '_'] <:+: s :=
  doubled_snakeCaseAfter_iff h none

/-! ### What Pascal case keeps -/

/-- Apart from case, a name in Pascal case is the name without its low lines. -/
theorem lowerText_pascalCase (h : ∀ c ∈ s, isNameChar c = true) :
    lowerText (pascalCase s) = (lowerText s).filter (· != '_') := by
  rw [lowerText_of_isNameChar (isNameChar_of_mem_pascalCase h), map_toLower_pascalCase h,
    lowerText_of_isNameChar h, List.filter_map]
  congr 1
  apply List.filter_congr
  intro c hc
  rw [Function.comp_apply, Bool.eq_iff_iff, bne_iff_ne, bne_iff_ne]
  exact (not_congr (toLower_eq_lowLine_iff (h c hc))).symm

/-- A name has no low lines in Pascal case. -/
theorem lowLine_not_mem_pascalCase (h : ∀ c ∈ s, isNameChar c = true) : '_' ∉ pascalCase s := by
  intro hm
  have hlower : '_'.toLower ∈ lowerText (pascalCase s) := by
    rw [lowerText_of_isNameChar (isNameChar_of_mem_pascalCase h)]
    exact List.mem_map_of_mem hm
  rw [lowerText_pascalCase h] at hlower
  cases (List.mem_filter.mp hlower).2

/-! ### Both styles -/

/-- In snake case a name has no capital letters, is not changed by snake case again, and is the
name in lower case apart from low lines; none of them is at its start or next to another one that
was not before. In Pascal case it has no low lines, and is the name without them apart from
case, so that nothing is left of a name only if it has low lines only. -/
theorem nameStyles_keep_name (h : ∀ c ∈ s, isNameChar c = true) :
    ((∀ c ∈ snakeCase s, isUpper c = false) ∧ snakeCase (snakeCase s) = snakeCase s ∧
      (snakeCase s).filter (· != '_') = (lowerText s).filter (· != '_') ∧
      ((snakeCase s).head? = some '_' ↔ s.head? = some '_') ∧
      (['_', '_'] <:+: snakeCase s ↔ ['_', '_'] <:+: s)) ∧
    '_' ∉ pascalCase s ∧ lowerText (pascalCase s) = (lowerText s).filter (· != '_') ∧
      (pascalCase s = [] ↔ ∀ c ∈ s, c = '_') :=
  ⟨⟨isUpper_of_mem_snakeCase h, snakeCase_snakeCase h, filter_snakeCase h,
      head?_snakeCaseAfter_eq_lowLine_iff h fun _ ↦ rfl, doubled_snakeCase_iff h⟩,
    lowLine_not_mem_pascalCase h, lowerText_pascalCase h, pascalCase_eq_nil_iff h⟩

/-- An acronym with low lines around it and a digit behind it. -/
theorem nameStyles_keep_acronym :
    (∀ c ∈ "_rawHTTPFlag__2B".toList, isNameChar c = true) ∧
      snakeCase "_rawHTTPFlag__2B".toList = "_raw_http_flag__2_b".toList ∧
      snakeCase "_raw_http_flag__2_b".toList = "_raw_http_flag__2_b".toList ∧
      pascalCase "_rawHTTPFlag__2B".toList = "Rawhttpflag2b".toList ∧
      '_' ∉ pascalCase "_rawHTTPFlag__2B".toList := by
  have hname : ∀ c ∈ "_rawHTTPFlag__2B".toList, isNameChar c = true :=
    List.all_eq_true.mp (by decide)
  have hsnake : snakeCase "_rawHTTPFlag__2B".toList = "_raw_http_flag__2_b".toList := by decide
  obtain ⟨⟨_, hstays, _⟩, hlow, _⟩ := nameStyles_keep_name hname
  rw [hsnake] at hstays
  exact ⟨hname, hsnake, hstays, by decide, hlow⟩

end WireSchema.Naming
