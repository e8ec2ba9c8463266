import WireSchema.Proofs.Schema.BlockComments

/-!
# Line comments before other lines

Block comments are erased before line comments, and they do not look at lines. A line comment is
therefore only erased as one if it has no part in a block comment: its marker is still there when
the line comments are erased, and the line ends where it did. The main statement says that it then
goes up to the end of its line, so that a schema is read as if it were not there, and what is left
otherwise: a block comment that starts in the line takes all lines with it up to its end.
-/

namespace WireSchema

open Text Grammar Comment

/-- The text of a line comment. -/
def lineComment (c : String) : String := "//" ++ c

namespace Comment

/-- What is left of a text without its closed block comments up to the marker of one that is not
closed, and what follows that marker. -/
def unclosed? : List Char → Option (List Char × List Char)
  | [] => none
  | c :: r =>
    match _h : afterBlock? (c :: r) with
    | some rest => unclosed? rest
    | none =>
      match skipWord? "/*" (c :: r) with
      | some inside => some ([], inside)
      | none => (unclosed? r).map (Prod.map (c :: ·) id)
termination_by s => s.length
decreasing_by
  · exact length_afterBlock? _h
  · simp

variable {s v k r before inside : List Char}

/-! ### Closing markers -/

/-- A text is closed by its first closing marker. -/
theorem afterClose?_eq_some_iff :
    afterClose? s = some r ↔ ∃ k, ¬['*', '/'] <:+: k ∧ s = k ++ '*' :: '/' :: r := by
  constructor
  · intro h
    induction s with
    | nil => cases h
    | cons c s ih =>
      by_cases hstart : ['*', '/'] <+: c :: s
      · obtain ⟨t, ht⟩ := hstart
        rw [← ht] at h
        cases h
        exact ⟨[], by simp, ht.symm⟩
      · rw [afterClose?_cons hstart] at h
        obtain ⟨k, hk, rfl⟩ := ih h
        refine ⟨c :: k, ?_, rfl⟩
        rw [List.infix_cons_iff, not_or]
        refine ⟨fun hp ↦ hstart (hp.trans ?_), hk⟩
        exact List.prefix_append (c :: k) _
  · rintro ⟨k, hk, rfl⟩
    exact afterClose?_append hk r

/-- Nothing is closed exactly if there is no closing marker. -/
theorem afterClose?_eq_none_iff : afterClose? s = none ↔ ¬['*', '/'] <:+: s := by
  induction s with
  | nil => simp [afterClose?]
  | cons c s ih =>
    rw [List.infix_cons_iff, not_or, ← ih]
    by_cases h : ['*', '/'] <+: c :: s
    · obtain ⟨t, ht⟩ := h
      have hskip : skipWord? "*/" (c :: s) = some t := skipWord?_eq_some_iff.mpr ht.symm
      rw [afterClose?, hskip]
      simp [← ht]
    · rw [afterClose?_cons h]
      simp [h]

/-! ### Block comments of a line and of what follows it -/

/-- What follows a line starts with no character of a line. -/
theorem stops_of_line (hv : Stops isWithinLine v) {a : Char} (ha : isWithinLine a = true) :
    Stops (· == a) v := by
  cases v with
  | nil => exact stops_nil _
  | cons c v =>
    refine stops_cons.mpr (beq_eq_false_iff_ne.mpr ?_)
    rintro rfl
    rw [stops_cons, ha] at hv
    cases hv

/-- A text that does not start with a marker cannot have it skipped. -/
private theorem not_prefix_of_skipWord? (h : skipWord? "/*" s = none) : ¬['/', '*'] <+: s := by
  rintro ⟨t, ht⟩
  cases h.symm.trans (skipWord?_eq_some_iff.mpr ht.symm)

/-- A closed block comment is one whatever follows. -/
theorem afterBlock?_append (h : afterBlock? s = some r) (v : List Char) :
    afterBlock? (s ++ v) = some (r ++ v) := by
  obtain ⟨t, ht, hr⟩ := Option.bind_eq_some_iff.mp h
  obtain ⟨k, hk, rfl⟩ := afterClose?_eq_some_iff.mp hr
  rw [skipWord?_eq_some_iff.mp ht, List.append_assoc]
  refine Option.bind_eq_some_iff.mpr ⟨_, skipWord?_eq_some_iff.mpr rfl, ?_⟩
  rw [List.append_assoc]
  exact afterClose?_append hk (r ++ v)

/-- There is no closed block comment in a text without closing markers. -/
theorem afterBlock?_eq_none (hs : ¬['*', '/'] <:+: s) : afterBlock? s = none := by
  rw [afterBlock?, Option.bind_eq_none_iff]
  intro t ht
  rw [skipWord?_eq_some_iff.mp ht] at hs
  exact afterClose?_eq_none_iff.mpr fun h ↦ hs (h.trans (List.suffix_append _ t).isInfix)

/-- A text without closing markers has no closed block comments. -/
theorem eraseBlocks_of_no_close (hs : ¬['*', '/'] <:+: s) : eraseBlocks s = s := by
  induction s with
  | nil => rw [eraseBlocks]
  | cons c s ih =>
    rw [eraseBlocks_cons_of_none (afterBlock?_eq_none hs), ih]
    exact fun h ↦ hs (h.trans (List.suffix_cons c s).isInfix)

/-- Every character that is left was there. -/
theorem mem_of_mem_eraseBlocks {a : Char} (h : a ∈ eraseBlocks s) : a ∈ s := by
  fun_induction eraseBlocks s with
  | case1 => exact h
  | case2 c r rest hrest ih =>
    obtain ⟨t, ht, hr⟩ := Option.bind_eq_some_iff.mp hrest
    obtain ⟨k, _, rfl⟩ := afterClose?_eq_some_iff.mp hr
    rw [skipWord?_eq_some_iff.mp ht]
    simp [ih h]
  | case3 c r _ ih =>
    rcases List.mem_cons.mp h with rfl | h
    · exact List.mem_cons_self
    · exact List.mem_cons_of_mem c (ih h)

/-- A text that leaves no block comment open has those that it has on its own. -/
theorem eraseBlocks_append_of_closed (hs : unclosed? s = none) (hv : Stops isWithinLine v) :
    eraseBlocks (s ++ v) = eraseBlocks s ++ eraseBlocks v := by
  fun_induction unclosed? s with
  | case1 => rw [eraseBlocks]; rfl
  | case2 c r rest hrest ih =>
    rw [eraseBlocks_of_some (afterBlock?_append hrest v), eraseBlocks_of_some hrest, ih hs]
  | case3 => cases hs
  | case4 c r _ hskip ih =>
    have hstart := not_prefix_of_skipWord? hskip
    have hstar : Stops (· == '*') v := stops_of_line hv (by decide)
    rw [List.cons_append, eraseBlocks_cons (not_prefix_append hstart hstar),
      eraseBlocks_cons hstart, ih (Option.map_eq_none_iff.mp hs), List.cons_append]

/-- A text that leaves a block comment open has those before it on its own. -/
theorem eraseBlocks_append_of_unclosed (hs : unclosed? s = some (before, inside))
    (hv : Stops isWithinLine v) :
    ¬['*', '/'] <:+: inside ∧
      eraseBlocks (s ++ v) = before ++ eraseBlocks ('/' :: '*' :: (inside ++ v)) := by
  fun_induction unclosed? s generalizing before with
  | case1 => cases hs
  | case2 c r rest hrest ih =>
    rw [eraseBlocks_of_some (afterBlock?_append hrest v)]
    exact ih hs
  | case3 c r hnone t ht =>
    obtain ⟨rfl, rfl⟩ := Prod.mk.inj (Option.some.inj hs)
    refine ⟨?_, by rw [skipWord?_eq_some_iff.mp ht]; rfl⟩
    rw [afterBlock?, ht] at hnone
    exact afterClose?_eq_none_iff.mp hnone
  | case4 c r _ hskip ih =>
    have hstart := not_prefix_of_skipWord? hskip
    have hstar : Stops (· == '*') v := stops_of_line hv (by decide)
    obtain ⟨⟨before', inside'⟩, hr, hpair⟩ := Option.map_eq_some_iff.mp hs
    obtain ⟨rfl, rfl⟩ := Prod.mk.inj hpair
    obtain ⟨hinside, he⟩ := ih hr
    refine ⟨hinside, ?_⟩
    rw [List.cons_append, eraseBlocks_cons (not_prefix_append hstart hstar), he]
    rfl

/-- A block comment that is never closed stays. -/
theorem eraseBlocks_of_never_closed (hs : ¬['*', '/'] <:+: s) :
    eraseBlocks ('/' :: '*' :: s) = '/' :: '*' :: s := by
  have hnone : afterBlock? ('/' :: '*' :: s) = none := afterClose?_eq_none_iff.mpr hs
  rw [eraseBlocks_cons_of_none hnone, eraseBlocks_cons_of_ne (by decide),
    eraseBlocks_of_no_close hs]

/-- Two texts have the block comments that they have on their own if none of the first text is
closed in the second one. -/
theorem eraseBlocks_append_of_apart (h : unclosed? s = none ∨ ¬['*', '/'] <:+: v)
    (hv : Stops isWithinLine v) : eraseBlocks (s ++ v) = eraseBlocks s ++ eraseBlocks v := by
  cases hs : unclosed? s with
  | none => exact eraseBlocks_append_of_closed hs hv
  | some found =>
    obtain ⟨before, inside⟩ := found
    have hclose : ¬['*', '/'] <:+: v := h.resolve_left (by simp [hs])
    obtain ⟨hinside, he⟩ := eraseBlocks_append_of_unclosed hs hv
    obtain ⟨_, hself⟩ := eraseBlocks_append_of_unclosed hs (stops_nil _)
    have hslash : Stops (· == '/') v := stops_of_line hv (by decide)
    have hboth : ¬['*', '/'] <:+: inside ++ v := by
      rw [← afterClose?_eq_none_iff, afterClose?_append_of_no_close hinside hslash]
      exact afterClose?_eq_none_iff.mpr hclose
    rw [List.append_nil, List.append_nil, eraseBlocks_of_never_closed hinside] at hself
    rw [he, hself, eraseBlocks_of_never_closed hboth, eraseBlocks_of_no_close hclose]
    simp

/-! ### Line comments -/

/-- A line comment with no part in a block comment. -/
structure IsApart (c v : List Char) : Prop where
  /-- None that starts at its marker ends in the line. -/
  marker : ∀ r, c = '*' :: r → ¬['*', '/'] <:+: r
  /-- None that starts in the line ends behind it. -/
  line : unclosed? ('/' :: '/' :: c) = none ∨ ¬['*', '/'] <:+: v

variable {c : List Char}

/-- A text without opening markers leaves no block comment open. -/
theorem unclosed?_eq_none (hs : ¬['/', '*'] <:+: s) : unclosed? s = none := by
  fun_induction unclosed? s with
  | case1 => rfl
  | case2 c r rest hrest ih =>
    obtain ⟨t, ht, _⟩ := Option.bind_eq_some_iff.mp hrest
    rw [skipWord?_eq_some_iff.mp ht] at hs
    exact absurd (List.prefix_append ['/', '*'] t).isInfix hs
  | case3 c r _ t ht =>
    rw [skipWord?_eq_some_iff.mp ht] at hs
    exact absurd (List.prefix_append ['/', '*'] t).isInfix hs
  | case4 c r _ _ ih => rw [ih fun h ↦ hs (h.trans (List.suffix_cons c r).isInfix), Option.map_none]

/-- A line comment without opening markers has no part in a block comment. -/
theorem isApart_of_no_open (h : ¬['/', '*'] <:+: '/' :: '/' :: c) (v : List Char) :
    IsApart c v := by
  refine ⟨?_, .inl (unclosed?_eq_none h)⟩
  rintro r rfl
  have hstart : ['/', '*'] <+: '/' :: '*' :: r := List.prefix_append ['/', '*'] r
  exact absurd (hstart.isInfix.trans (List.suffix_cons '/' _).isInfix) h

/-- A line ends where it did without the block comments behind it. -/
theorem stops_isWithinLine_eraseBlocks (hv : Stops isWithinLine v) :
    Stops isWithinLine (eraseBlocks v) := by
  cases v with
  | nil =>
    rw [eraseBlocks]
    exact stops_nil _
  | cons a v =>
    have hslash : a ≠ '/' := by
      rintro rfl
      exact absurd (stops_cons.mp hv) (by decide)
    rw [eraseBlocks_cons_of_ne hslash]
    exact stops_cons.mpr (stops_cons.mp hv)

/-- The marker of a line comment stays unless a block comment starts at it and ends in the line. -/
theorem eraseBlocks_marker (h : ∀ r, c = '*' :: r → ¬['*', '/'] <:+: r) :
    eraseBlocks ('/' :: '/' :: c) = '/' :: '/' :: eraseBlocks c := by
  have hfirst : ¬['/', '*'] <+: '/' :: '/' :: c := by simp
  have hsecond : afterBlock? ('/' :: c) = none := by
    rw [afterBlock?, Option.bind_eq_none_iff]
    intro t ht
    exact afterClose?_eq_none_iff.mpr (h t (List.cons.inj (skipWord?_eq_some_iff.mp ht)).2)
  rw [eraseBlocks_cons hfirst, eraseBlocks_cons_of_none hsecond]

/-- A line comment with no part in a block comment goes up to the end of its line. -/
theorem erase_line (h : IsApart c v) (hc : ∀ x ∈ c, isWithinLine x = true)
    (hv : Stops isWithinLine v) : erase ('/' :: '/' :: (c ++ v)) = erase v := by
  have hblocks := eraseBlocks_append_of_apart h.line hv
  rw [eraseBlocks_marker h.marker] at hblocks
  have hwithin : ∀ x ∈ eraseBlocks c, isWithinLine x = true :=
    fun x hx ↦ hc x (mem_of_mem_eraseBlocks hx)
  rw [erase, ← List.cons_append, ← List.cons_append, hblocks]
  exact eraseLines_line hwithin (stops_isWithinLine_eraseBlocks hv)

/-- Of the marker of a line comment one slash stays if a block comment starts at the other one. -/
theorem erase_line_of_marker (hk : ¬['*', '/'] <:+: k) (hc : c = '*' :: (k ++ '*' :: '/' :: r))
    (v : List Char) :
    erase ('/' :: '/' :: (c ++ v)) = eraseLines ('/' :: eraseBlocks (r ++ v)) := by
  have hfirst : ¬['/', '*'] <+: '/' :: '/' :: (c ++ v) := by simp
  have hsecond : '/' :: (c ++ v) = '/' :: '*' :: (k ++ '*' :: '/' :: (r ++ v)) := by simp [hc]
  rw [erase, eraseBlocks_cons hfirst, hsecond, eraseBlocks_block hk]

/-- All that stands between a line comment that leaves a block comment open and the end of that goes
with it. -/
theorem erase_line_of_unclosed (hs : unclosed? ('/' :: '/' :: c) = some (before, inside))
    (hv : Stops isWithinLine v) (hk : ¬['*', '/'] <:+: k) (hclose : v = k ++ '*' :: '/' :: r) :
    erase ('/' :: '/' :: (c ++ v)) = eraseLines (before ++ eraseBlocks r) := by
  obtain ⟨hinside, he⟩ := eraseBlocks_append_of_unclosed hs hv
  have hslash : Stops (· == '/') v := stops_of_line hv (by decide)
  have hblock : afterBlock? ('/' :: '*' :: (inside ++ v)) = some r :=
    (afterClose?_append_of_no_close hinside hslash).trans
      (afterClose?_eq_some_iff.mpr ⟨k, hk, hclose⟩)
  rw [eraseBlocks_of_some hblock] at he
  rw [erase, ← he]
  rfl

end Comment

namespace Message

/-- The characters of a text with a line comment in it. -/
theorem toList_append_lineComment (s c v : String) :
    (s ++ lineComment c ++ v).toList = s.toList ++ '/' :: '/' :: (c.toList ++ v.toList) := by
  simp [lineComment]

/-- A line comment is erased up to the end of its line, and the schema is read as without it, if it
has no part in a block comment, as it has none without the marker of one. A block comment that
starts at its marker and ends in the line leaves a single slash of the marker; one that starts in
the line and ends behind it takes all that stands in between. -/
theorem parse_lineComment {s c v : String} (hs : '/' ∉ s.toList)
    (hc : ∀ x ∈ c.toList, isWithinLine x = true) (hv : Stops isWithinLine v.toList) :
    (¬['/', '*'] <:+: '/' :: '/' :: c.toList → IsApart c.toList v.toList) ∧
    (IsApart c.toList v.toList →
      erase (s ++ lineComment c ++ v).toList = s.toList ++ erase v.toList ∧
        parse (s ++ lineComment c ++ v) = parse (s ++ v)) ∧
    (∀ k r, ¬['*', '/'] <:+: k → c.toList = '*' :: (k ++ '*' :: '/' :: r) →
      erase (s ++ lineComment c ++ v).toList =
        s.toList ++ eraseLines ('/' :: eraseBlocks (r ++ v.toList))) ∧
    ∀ before inside k r, unclosed? ('/' :: '/' :: c.toList) = some (before, inside) →
      ¬['*', '/'] <:+: k → v.toList = k ++ '*' :: '/' :: r →
      erase (s ++ lineComment c ++ v).toList =
        s.toList ++ eraseLines (before ++ eraseBlocks r) := by
  rw [toList_append_lineComment, erase_append_of_not_mem hs]
  refine ⟨fun hplain ↦ isApart_of_no_open hplain v.toList, fun hapart ↦ ?_,
    fun k r hk hmarker ↦ ?_, fun before inside k r hopen hk hclose ↦ ?_⟩
  · have hline := erase_line hapart hc hv
    refine ⟨by rw [hline], parse_eq_of_erase ?_⟩
    rw [toList_append_lineComment, String.toList_append, erase_append_of_not_mem hs, hline,
      erase_append_of_not_mem hs]
  · rw [erase_line_of_marker hk hmarker]
  · rw [erase_line_of_unclosed hopen hv hk hclose]

/-- A line comment with a block comment in it. -/
theorem parse_lineComment_in_schema :
    IsApart " b; /* c */ d;".toList "\nbool e; \x7d;".toList ∧
      parse ("struct A\x7b bool a; " ++ lineComment " b; /* c */ d;" ++ "\nbool e; \x7d;") =
        parse ("struct A\x7b bool a; " ++ "\nbool e; \x7d;") := by
  have hapart : IsApart " b; /* c */ d;".toList "\nbool e; \x7d;".toList :=
    ⟨fun r h ↦ absurd (List.cons.inj h).1 (by decide), .inl (by decide +kernel)⟩
  have hread := parse_lineComment (s := "struct A\x7b bool a; ") (c := " b; /* c */ d;")
    (v := "\nbool e; \x7d;") (by decide) (List.all_eq_true.mp (by decide))
    (by simp [Stops, isWithinLine])
  exact ⟨hapart, (hread.2.1 hapart).2⟩

/-- What a line comment says is relevant: it can open a block comment that hides the lines behind
it. -/
theorem lineComment_not_irrelevant :
    (¬ ∀ s c v : String, '/' ∉ s.toList → (∀ x ∈ c.toList, isWithinLine x = true) →
      Stops isWithinLine v.toList →
        erase (s ++ lineComment c ++ v).toList = s.toList ++ erase v.toList) ∧
      shape? ("struct A\x7b" ++ lineComment " /*" ++ "\nbool a; // */\nbool b; \x7d;") =
        some ("A", none, [⟨.bool, "b", none⟩]) ∧
      shape? ("struct A\x7b" ++ lineComment "" ++ "\nbool a; // */\nbool b; \x7d;") =
        some ("A", none, [⟨.bool, "a", none⟩, ⟨.bool, "b", none⟩]) := by
  have hhidden : erase ("" ++ lineComment " /*" ++ "\n*/").toList = [] := by decide +kernel
  have hshown : erase "\n*/".toList = ['\n', '*', '/'] := by decide +kernel
  refine ⟨fun h ↦ ?_, by decide +kernel, by decide +kernel⟩
  have heq := h "" " /*" "\n*/" (by decide) (List.all_eq_true.mp (by decide))
    (by simp [Stops, isWithinLine])
  rw [hhidden, hshown] at heq
  cases heq

end Message

end WireSchema
