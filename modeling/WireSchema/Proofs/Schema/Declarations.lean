import WireSchema.Proofs.Schema.Grammar
import WireSchema.Schema.Check

/-!
# Reading declarations

A statement is accepted exactly if it is two names with nothing or a length behind them
(`Statement`), and it makes a field exactly if it declares that field in the grammar. The main
statement carries this to a whole body: its statements are read and checked without an error
exactly if its pieces declare the fields.
-/

namespace WireSchema

open Text Grammar

/-- A sequence of two steps succeeds exactly if both do. -/
theorem bind_eq_ok_iff {ε α β : Type} {x : Except ε α} {f : α → Except ε β} {b : β} :
    x >>= f = .ok b ↔ ∃ a, x = .ok a ∧ f a = .ok b := by
  cases x with
  | error e =>
    constructor
    · intro h
      cases h
    · rintro ⟨a, ha, _⟩
      cases ha
  | ok a =>
    constructor
    · intro h
      exact ⟨a, rfl, h⟩
    · rintro ⟨a', ha, h⟩
      cases ha
      exact h

/-- A sequence of two steps fails exactly if the first one does, or the second one behind it. -/
theorem bind_eq_error_iff {ε α β : Type} {x : Except ε α} {f : α → Except ε β} {e : ε} :
    x >>= f = .error e ↔ x = .error e ∨ ∃ a, x = .ok a ∧ f a = .error e := by
  cases x with
  | error e' =>
    constructor
    · intro h
      cases h
      exact .inl rfl
    · rintro (h | ⟨a, ha, _⟩)
      · cases h
        rfl
      · cases ha
  | ok a =>
    constructor
    · intro h
      exact .inr ⟨a, rfl, h⟩
    · rintro (h | ⟨a', ha, h⟩)
      · cases h
      · cases ha
        exact h

/-- A list is processed if its first element and the others are. -/
theorem mapM_cons_eq_ok_iff {ε α β : Type} {f : α → Except ε β} {x : α} {xs : List α}
    {ys : List β} :
    (x :: xs).mapM f = .ok ys ↔ ∃ y zs, f x = .ok y ∧ xs.mapM f = .ok zs ∧ ys = y :: zs := by
  rw [List.mapM_cons, bind_eq_ok_iff]
  constructor
  · rintro ⟨y, hy, h⟩
    obtain ⟨zs, hzs, h⟩ := bind_eq_ok_iff.mp h
    cases h
    exact ⟨y, zs, hy, hzs, rfl⟩
  · rintro ⟨y, zs, hy, hzs, rfl⟩
    exact ⟨y, hy, bind_eq_ok_iff.mpr ⟨zs, hzs, rfl⟩⟩

/-- A list that is not processed has an element that is not. -/
theorem exists_of_mapM_eq_error {ε α β : Type} {f : α → Except ε β} {xs : List α} {e : ε}
    (h : xs.mapM f = .error e) : ∃ x ∈ xs, f x = .error e := by
  induction xs with
  | nil => cases h
  | cons x xs ih =>
    rw [List.mapM_cons, bind_eq_error_iff] at h
    rcases h with h | ⟨y, _, h⟩
    · exact ⟨x, List.mem_cons_self, h⟩
    · rcases bind_eq_error_iff.mp h with h | ⟨ys, _, h⟩
      · obtain ⟨z, hz, he⟩ := ih h
        exact ⟨z, List.mem_cons_of_mem x hz, he⟩
      · cases h

/-- What a list is processed to comes from its elements. -/
theorem exists_of_mem_of_mapM_eq_ok {ε α β : Type} {f : α → Except ε β} {xs : List α}
    {ys : List β} (h : xs.mapM f = .ok ys) : ∀ y ∈ ys, ∃ x ∈ xs, f x = .ok y := by
  induction xs generalizing ys with
  | nil =>
    cases h
    simp
  | cons x xs ih =>
    obtain ⟨y, zs, hy, hzs, rfl⟩ := mapM_cons_eq_ok_iff.mp h
    refine List.forall_mem_cons.mpr ⟨⟨x, List.mem_cons_self, hy⟩, fun z hz ↦ ?_⟩
    obtain ⟨x', hx', hz⟩ := ih hzs z hz
    exact ⟨x', List.mem_cons_of_mem x hx', hz⟩

namespace Declaration

/-- An array length as it is written: digits, with a minus sign before them or none. -/
inductive LengthText : List Char → Prop
  | intro {sign digits : List Char} (hs : sign = [] ∨ sign = ['-']) (hne : digits ≠ [])
      (hd : ∀ c ∈ digits, c.isDigit = true) : LengthText (sign ++ digits)

/-- What ends a statement: nothing, or an array length in brackets. -/
inductive Tail : List Char → Option String → Prop
  | scalar : Tail [] none
  | array {w length w' : List Char} (hw : Blanks w) (hl : LengthText length) (hw' : Blanks w') :
      Tail ('[' :: (w ++ (length ++ (w' ++ [']'])))) (some (String.ofList length))

/-- A statement of the form of a declaration, whatever its type and its length are. -/
inductive Statement : List Char → Declaration → Prop
  | intro {typeName sep name w tail : List Char} {length : Option String}
      (htype : isName typeName = true) (hsep : Separator sep) (hname : isName name = true)
      (hw : Blanks w) (ht : Tail tail length) :
      Statement (typeName ++ (sep ++ (name ++ (w ++ tail))))
        ⟨String.ofList typeName, String.ofList name, length⟩

/-! ### Array lengths -/

private theorem isDigit_minus : Char.isDigit '-' = false := by decide

private theorem stops_minus_of_digits {digits : List Char} (hne : digits ≠ [])
    (hd : ∀ c ∈ digits, c.isDigit = true) (r : List Char) : Stops (· == '-') (digits ++ r) := by
  obtain ⟨c, digits, rfl⟩ := List.exists_cons_of_ne_nil hne
  have hc := hd c List.mem_cons_self
  have hm : c ≠ '-' := by
    rintro rfl
    rw [isDigit_minus] at hc
    cases hc
  rw [List.cons_append, stops_cons, beq_eq_false_iff_ne]
  exact hm

/-- A length is scanned up to the first character that is no digit. -/
theorem scanLength?_eq_some_iff {s length r : List Char} :
    scanLength? s = some (length, r) ↔
      LengthText length ∧ Stops Char.isDigit r ∧ s = length ++ r := by
  constructor
  · intro h
    simp only [scanLength?] at h
    have hsign := List.all_eq_true.mp (List.all_takeWhile (p := (· == '-')) (l := s))
    have hs := List.prefix_iff_eq_append.mp (List.takeWhile_prefix (· == '-') (l := s))
    generalize s.takeWhile (· == '-') = sign at h hsign hs
    generalize s.drop sign.length = u at h hs
    split at h
    · next hc =>
      cases h
      simp only [Bool.and_eq_true, decide_eq_true_eq, Bool.not_eq_true', List.isEmpty_eq_false_iff]
        at hc
      refine ⟨.intro ?_ hc.2 (List.all_eq_true.mp List.all_takeWhile), stops_dropWhile _ _, ?_⟩
      · match sign, hc.1, hsign with
        | [], _, _ => exact .inl rfl
        | [c], _, hsign =>
          rw [eq_of_beq (hsign c List.mem_cons_self)]
          exact .inr rfl
      · rw [List.append_assoc, List.takeWhile_append_dropWhile, hs]
    · cases h
  · rintro ⟨hl, hr, rfl⟩
    cases hl with
    | @intro sign digits hs hne hd =>
      have hm : ∀ c ∈ sign, (c == '-') = true := by
        rcases hs with rfl | rfl <;> simp
      have hk : sign.length ≤ 1 := by
        rcases hs with rfl | rfl <;> simp
      have hsign := takeWhile_append_of_stops hm (stops_minus_of_digits hne hd r)
      simp only [scanLength?, List.append_assoc, hsign, List.drop_left,
        takeWhile_append_of_stops hd hr, dropWhile_append_of_stops hd hr]
      simp [hk, hne]

private theorem ne_of_isDigit {c a : Char} (hc : c.isDigit = true) (ha : a.isDigit = false) :
    c ≠ a := by
  rintro rfl
  rw [hc] at ha
  cases ha

/-- Digits are an array length if their value is a word and not zero. -/
theorem checkLength_of_digits {field : String} {digits : List Char} (hne : digits ≠ [])
    (hd : ∀ c ∈ digits, c.isDigit = true) :
    checkLength field (String.ofList digits) =
      if Nat.ofDigitChars 10 digits 0 = 0 then
        .error (.nonPositiveLength field (String.ofList digits))
      else if Nat.ofDigitChars 10 digits 0 < UInt32.size then
        .ok (UInt32.ofNat (Nat.ofDigitChars 10 digits 0))
      else .error (.lengthOutOfRange field (String.ofList digits)) := by
  have hdec : decimal? digits = some (Nat.ofDigitChars 10 digits 0) :=
    decimal?_eq_some_iff.mpr ⟨hne, hd, rfl⟩
  obtain ⟨c, r, rfl⟩ := List.exists_cons_of_ne_nil hne
  have hc := hd c List.mem_cons_self
  have hminus : c ≠ '-' := ne_of_isDigit hc (by decide)
  have hplus : c ≠ '+' := ne_of_isDigit hc (by decide)
  generalize Nat.ofDigitChars 10 (c :: r) 0 = k at hdec ⊢
  by_cases hk : k < UInt32.size
  · have hz : UInt32.ofNat k = 0 ↔ k = 0 := by
      rw [← UInt32.toNat_inj, UInt32.toNat_ofNat_of_lt' hk]
      rfl
    simp [checkLength, word32?, skipChar?, hminus, hplus, hdec, hk, hz]
  · have hz : k ≠ 0 := by
      rintro rfl
      exact hk (by decide)
    simp [checkLength, word32?, skipChar?, hminus, hplus, hdec, hk, hz]

/-- Nothing with a minus sign is an array length. -/
theorem checkLength_of_minus (field : String) (digits : List Char) :
    checkLength field (String.ofList ('-' :: digits)) =
      .error (.nonPositiveLength field (String.ofList ('-' :: digits))) := by
  simp [checkLength, skipChar?]

/-- A length is accepted if it is a number of the grammar that fits in a word. -/
theorem checkLength_eq_ok_iff {field : String} {length : List Char} {n : UInt32}
    (hl : LengthText length) :
    checkLength field (String.ofList length) = .ok n ↔
      decimal? length = some n.toNat ∧ n ≠ 0 := by
  obtain ⟨hs, hne, hd⟩ := hl
  rename_i sign digits
  rcases hs with rfl | rfl
  · have hdec : decimal? digits = some (Nat.ofDigitChars 10 digits 0) :=
      decimal?_eq_some_iff.mpr ⟨hne, hd, rfl⟩
    rw [List.nil_append, checkLength_of_digits hne hd, hdec]
    generalize Nat.ofDigitChars 10 digits 0 = k
    constructor
    · intro h
      split at h
      · cases h
      · next hz =>
        split at h
        · next hk =>
          cases h
          rw [UInt32.toNat_ofNat_of_lt' hk]
          refine ⟨rfl, fun h0 ↦ hz ?_⟩
          rw [← UInt32.toNat_ofNat_of_lt' hk, h0]
          rfl
        · cases h
    · rintro ⟨hk, hn⟩
      cases hk
      have hz : n.toNat ≠ 0 := fun h0 ↦ hn (UInt32.toNat_inj.mp h0)
      simp only [hz, if_false, n.toNat_lt_size, if_true, UInt32.ofNat_toNat]
  · rw [List.singleton_append, checkLength_of_minus]
    constructor
    · intro h
      cases h
    · rintro ⟨h, _⟩
      simp [decimal?] at h

/-! ### Statements -/

/-- A length has name characters only, apart from its sign. -/
private theorem stops_isBlank_length_append {length : List Char} (hl : LengthText length)
    (r : List Char) : Stops isBlank (length ++ r) := by
  obtain ⟨hs, hne, hd⟩ := hl
  rename_i sign digits
  rcases hs with rfl | rfl
  · obtain ⟨c, digits, rfl⟩ := List.exists_cons_of_ne_nil hne
    have hc := isNameChar_of_isDigit (hd c List.mem_cons_self)
    exact stops_cons.mpr (isBlank_of_isNameChar hc)
  · exact stops_cons.mpr (by decide)

private theorem stops_isDigit_blanks_append {w r : List Char} (hw : Blanks w)
    (hr : Stops Char.isDigit r) : Stops Char.isDigit (w ++ r) := by
  refine hr.append fun c hc ↦ ?_
  have hn := hw.isNameChar c hc
  simp only [isNameChar, Char.isAlphanum, Bool.or_eq_false_iff] at hn
  exact hn.1.2

/-- What is read between brackets is a length, with blanks around it. -/
theorem bracketed?_eq_some_iff {s length : List Char} :
    bracketed? s = some length ↔
      ∃ w w', Blanks w ∧ LengthText length ∧ Blanks w' ∧
        s = '[' :: (w ++ (length ++ (w' ++ [']']))) := by
  simp only [bracketed?, Option.bind_eq_bind, Option.bind_eq_some_iff, skipChar?_eq_some_iff,
    Prod.exists, scanLength?_eq_some_iff]
  constructor
  · rintro ⟨r, rfl, l, r', ⟨hl, _, ht⟩, r'', hr, he⟩
    split at he
    · next hnil =>
      cases he
      obtain ⟨w, hw, hs⟩ := exists_blanks_append_trimStart r
      obtain ⟨w', hw', hs'⟩ := exists_blanks_append_trimStart r'
      refine ⟨w, w', hw, hl, hw', ?_⟩
      rw [List.isEmpty_iff.mp hnil] at hr
      rw [← hr, ← hs', ← ht, ← hs]
    · cases he
  · rintro ⟨w, w', hw, hl, hw', rfl⟩
    refine ⟨_, rfl, length, w' ++ [']'], ⟨hl, ?_, ?_⟩, [], ?_, rfl⟩
    · exact stops_isDigit_blanks_append hw' (stops_cons.mpr (by decide))
    · exact trimStart_append_of_stops hw (stops_isBlank_length_append hl _)
    · exact trimStart_append_of_stops hw' (stops_cons.mpr (by decide))

/-- What ends a statement does not go on with a name character or a blank. -/
private theorem Tail.stops {p : Char → Bool} {tail : List Char} {length : Option String}
    (ht : Tail tail length) (hp : p '[' = false) : Stops p tail := by
  cases ht with
  | scalar => exact stops_nil p
  | array => exact stops_cons.mpr hp

/-- A text is read as a statement exactly if it is one. -/
theorem ofStatement?_eq_some_iff {s : List Char} {d : Declaration} :
    ofStatement? s = some d ↔ Statement s d := by
  simp only [ofStatement?, Option.bind_eq_bind, Option.bind_eq_some_iff, Prod.exists,
    scanName?_eq_some_iff, skipBlanks?_eq_some_iff]
  constructor
  · rintro ⟨typeName, r, ⟨ht, _, rfl⟩, r', ⟨sep, hsep, _, rfl⟩, name, r'', ⟨hn, _, rfl⟩, h⟩
    obtain ⟨w, hw, hs⟩ := exists_blanks_append_trimStart r''
    split at h
    · next hnil =>
      cases h
      rw [hs, hnil]
      exact .intro ht hsep hn hw .scalar
    · obtain ⟨length, hl, h⟩ := Option.bind_eq_some_iff.mp h
      cases h
      obtain ⟨w₁, w₂, hw₁, hl, hw₂, htail⟩ := bracketed?_eq_some_iff.mp hl
      rw [hs, htail]
      exact .intro ht hsep hn hw (.array hw₁ hl hw₂)
  · rintro ⟨ht, hsep, hn, hw, htail⟩
    rename_i typeName sep name w tail length
    have hblank : Stops isBlank tail := htail.stops (by decide)
    have hname : Stops isNameChar (w ++ tail) := (htail.stops (by decide)).append hw.isNameChar
    refine ⟨typeName, _, ⟨ht, hsep.stops_isNameChar _, rfl⟩, _,
      ⟨sep, hsep, stops_isBlank_name_append hn _, rfl⟩, name, _, ⟨hn, hname, rfl⟩, ?_⟩
    rw [trimStart_append_of_stops hw hblank]
    cases htail with
    | scalar => rfl
    | array hw₁ hl hw₂ =>
      rename_i w₁ length w₂
      have hb := bracketed?_eq_some_iff.mpr ⟨w₁, w₂, hw₁, hl, hw₂, rfl⟩
      simp only [hb, Option.bind_some]

/-! ### Fields -/

/-- A declaration without a length makes a scalar of the type it names. -/
theorem toField_scalar_eq_ok_iff {typeName name : String} {f : Field} :
    toField ⟨typeName, name, none⟩ = .ok f ↔ ∃ t, typeName = t.name ∧ f = ⟨t, name, none⟩ := by
  unfold toField
  constructor
  · intro h
    split at h
    · cases h
    · next t ht =>
      cases h
      exact ⟨t, ScalarType.ofName?_eq_some_iff.mp ht, rfl⟩
  · rintro ⟨t, rfl, rfl⟩
    rw [ScalarType.ofName?_name]

/-- A declaration with a length makes an array of the type it names. -/
theorem toField_array_eq_ok_iff {typeName name length : String} {f : Field} :
    toField ⟨typeName, name, some length⟩ = .ok f ↔
      ∃ t n, typeName = t.name ∧ checkLength name length = .ok n ∧ f = ⟨t, name, some n⟩ := by
  unfold toField
  constructor
  · intro h
    split at h
    · cases h
    · next t ht =>
      dsimp only at h
      split at h
      · cases h
      · next n hn =>
        cases h
        exact ⟨t, n, ScalarType.ofName?_eq_some_iff.mp ht, hn, rfl⟩
  · rintro ⟨t, n, rfl, hn, rfl⟩
    simp only [ScalarType.ofName?_name, hn]

/-- A text declares a field in the grammar exactly if it is a statement that makes that field. -/
theorem declares_iff {s : List Char} {f : Field} :
    Declares s f ↔ ∃ d, Statement s d ∧ d.toField = .ok f := by
  constructor
  · rintro ⟨hsep, hname, hw, he⟩
    rename_i type sep name w extent length
    cases he with
    | scalar =>
      refine ⟨_, .intro (isName_typeName type) hsep hname hw .scalar, ?_⟩
      exact toField_scalar_eq_ok_iff.mpr ⟨type, String.ofList_toList, rfl⟩
    | array hw₁ hd hn hw₂ =>
      obtain ⟨hne, hdigits, _⟩ := decimal?_eq_some_iff.mp hd
      have hl : LengthText ([] ++ _) := .intro (.inl rfl) hne hdigits
      refine ⟨_, .intro (isName_typeName type) hsep hname hw (.array hw₁ hl hw₂), ?_⟩
      exact toField_array_eq_ok_iff.mpr
        ⟨type, _, String.ofList_toList, (checkLength_eq_ok_iff hl).mpr ⟨hd, hn⟩, rfl⟩
  · rintro ⟨d, ⟨htype, hsep, hname, hw, ht⟩, h⟩
    cases ht with
    | scalar =>
      obtain ⟨t, htype, rfl⟩ := toField_scalar_eq_ok_iff.mp h
      have ht := congrArg String.toList htype
      rw [String.toList_ofList] at ht
      rw [ht]
      exact .intro hsep hname hw .scalar
    | array hw₁ hl hw₂ =>
      obtain ⟨t, n, htype, hn, rfl⟩ := toField_array_eq_ok_iff.mp h
      obtain ⟨hd, hn⟩ := (checkLength_eq_ok_iff hl).mp hn
      have ht := congrArg String.toList htype
      rw [String.toList_ofList] at ht
      rw [ht]
      exact .intro hsep hname hw (.array hw₁ hd hn hw₂)

/-! ### Bodies -/

private theorem stops_isBlank_reverse_append_name {name : List Char} (h : isName name = true)
    (s : List Char) : Stops isBlank (s ++ name).reverse := by
  have hne : name.reverse ≠ [] := by
    simpa using ne_nil_of_isName h
  obtain ⟨c, r, hr⟩ := List.exists_cons_of_ne_nil hne
  have hm : c ∈ name := by
    rw [← List.mem_reverse, hr]
    exact List.mem_cons_self
  rw [List.reverse_append, hr, List.cons_append, stops_cons]
  exact isBlank_of_isNameChar (isNameChar_of_mem_name h c hm)

/-- A declaration stays one if the blanks around it are trimmed. -/
theorem declares_trim {w s w' : List Char} {f : Field} (hw : Blanks w) (hd : Declares s f)
    (hw' : Blanks w') : Declares (trim (w ++ (s ++ w'))) f := by
  obtain ⟨hsep, hname, hw₁, he⟩ := hd
  rename_i type sep name w₁ extent length
  have htype := isName_typeName type
  have hstart (r : List Char) : Stops isBlank (type.name.toList ++ r) :=
    stops_isBlank_name_append htype r
  cases he with
  | scalar =>
    have hs : w ++ (type.name.toList ++ (sep ++ (name ++ (w₁ ++ []))) ++ w') =
        w ++ ((type.name.toList ++ (sep ++ name)) ++ (w₁ ++ w')) := by
      simp
    have hd : Declares (type.name.toList ++ (sep ++ (name ++ ([] ++ []))))
        ⟨type, String.ofList name, none⟩ := .intro hsep hname blanks_nil .scalar
    simp only [List.append_nil] at hd
    rw [hs, trim_append_of_stops hw (hw₁.append hw')]
    · exact hd
    · rw [List.append_assoc]
      exact hstart _
    · rw [← List.append_assoc]
      exact stops_isBlank_reverse_append_name hname _
  | array hw₂ hd hn hw₃ =>
    rename_i w₂ digits w₃ n
    rw [trim_append_of_stops hw hw']
    · exact .intro hsep hname hw₁ (.array hw₂ hd hn hw₃)
    · rw [List.append_assoc]
      exact hstart _
    · simp only [List.reverse_append, List.reverse_cons, List.append_assoc, List.reverse_nil,
        List.nil_append, List.cons_append]
      exact stops_cons.mpr (by decide)

/-- A declaration is not empty. -/
theorem ne_nil_of_declares {s : List Char} {f : Field} (hd : Declares s f) : s ≠ [] := by
  obtain ⟨hsep, hname, hw, he⟩ := hd
  rename_i type sep name w extent length
  have hne := ne_nil_of_isName (isName_typeName type)
  simp [hne]

/-- A text is accepted as a statement exactly if it is one. -/
theorem ofStatement_eq_ok_iff {s : List Char} {d : Declaration} :
    ofStatement s = .ok d ↔ Statement s d := by
  rw [← ofStatement?_eq_some_iff]
  unfold ofStatement
  constructor
  · intro h
    split at h
    · next e he =>
      cases h
      exact he
    · cases h
  · intro h
    rw [h]

private theorem pieces_of_statements {pieces : List (List Char)} {ds : List Declaration}
    {fields : List Field}
    (hds : ((pieces.map trim).filter fun s ↦ !s.isEmpty).mapM ofStatement = .ok ds)
    (hfs : ds.mapM toField = .ok fields) : Pieces pieces fields := by
  induction pieces generalizing ds fields with
  | nil =>
    cases hds
    cases hfs
    exact .nil
  | cons piece pieces ih =>
    obtain ⟨w, w', hw, hw', hpiece⟩ := exists_blanks_trim piece
    by_cases ht : trim piece = []
    · simp only [List.map_cons, ht, List.filter_cons, List.isEmpty_nil, Bool.not_true,
        Bool.false_eq_true, if_false] at hds
      rw [hpiece, ht]
      exact .blank (hw.append hw') (ih hds hfs)
    · simp only [List.map_cons, List.filter_cons, List.isEmpty_eq_false_iff.mpr ht,
        Bool.not_false, if_true] at hds
      obtain ⟨d, ds', hd, hds', rfl⟩ := mapM_cons_eq_ok_iff.mp hds
      obtain ⟨f, fs, hf, hfs', rfl⟩ := mapM_cons_eq_ok_iff.mp hfs
      rw [hpiece]
      exact .field hw (declares_iff.mpr ⟨d, ofStatement_eq_ok_iff.mp hd, hf⟩) hw' (ih hds' hfs')

private theorem exists_statements_of_pieces {pieces : List (List Char)} {fields : List Field}
    (h : Pieces pieces fields) :
    ∃ ds, ((pieces.map trim).filter fun s ↦ !s.isEmpty).mapM ofStatement = .ok ds ∧
      ds.mapM toField = .ok fields := by
  induction h with
  | nil => exact ⟨[], rfl, rfl⟩
  | blank hw _ ih =>
    obtain ⟨ds, hds, hfs⟩ := ih
    refine ⟨ds, ?_, hfs⟩
    simpa only [List.map_cons, trim_of_blanks hw, List.filter_cons, List.isEmpty_nil,
      Bool.not_true, Bool.false_eq_true, if_false] using hds
  | @field w text w' f pieces fields hw hd hw' _ ih =>
    obtain ⟨ds, hds, hfs⟩ := ih
    have ht := declares_trim hw hd hw'
    obtain ⟨d, hs, hf⟩ := declares_iff.mp ht
    refine ⟨d :: ds, ?_, mapM_cons_eq_ok_iff.mpr ⟨f, fields, hf, hfs, rfl⟩⟩
    simp only [List.map_cons, List.filter_cons,
      List.isEmpty_eq_false_iff.mpr (ne_nil_of_declares ht), Bool.not_false, if_true]
    exact mapM_cons_eq_ok_iff.mpr ⟨d, ds, ofStatement_eq_ok_iff.mpr hs, hds, rfl⟩

/-- A body is read and checked without an error exactly if its pieces declare the fields. -/
theorem ofBody_toField_iff {body : List Char} {fields : List Field} :
    (∃ ds, ofBody body = .ok ds ∧ ds.mapM toField = .ok fields) ↔
      Pieces (body.splitOn ';') fields := by
  constructor
  · rintro ⟨ds, hds, hfs⟩
    exact pieces_of_statements hds hfs
  · exact exists_statements_of_pieces

end Declaration

end WireSchema
