import WireSchema.Proofs.Text.Scan

/-!
# The lexemes of a text

A lexeme is a word or another character that is no blank: a word is a run of name characters and
dots that is as long as possible. Two texts touch if the one ends and the other starts with a
character of a word. Put together, two texts keep their lexemes if they do not touch, and otherwise
the last word of the one and the first word of the other become one word; these are the main
statements. A text can be taken apart again, lexeme by lexeme.
-/

namespace WireSchema.Text

/-- Whether the first text ends with a character of a word and the second one starts with one. -/
def touches (s u : List Char) : Bool :=
  s.getLast?.any isDottedChar && u.head?.any isDottedChar

/-- The lexemes of a text, in order. A character that touches what follows it belongs to the word
there. -/
def lexemes : List Char → List (List Char)
  | [] => []
  | c :: r =>
    if touches [c] r then (lexemes r).modifyHead (c :: ·)
    else if isBlank c then lexemes r
    else [c] :: lexemes r

/-- A text of name characters and dots, of at least one. -/
structure IsWord (s : List Char) : Prop where
  ne_nil : s ≠ []
  dotted : ∀ c ∈ s, isDottedChar c = true

/-- A character that is a lexeme of its own: no blank, and no character of a word. -/
structure IsMark (c : Char) : Prop where
  blank : isBlank c = false
  dotted : isDottedChar c = false

/-! ### Texts that touch -/

/-- The empty text touches nothing. -/
@[simp] theorem touches_nil_left (u : List Char) : touches [] u = false := rfl

/-- Nothing touches the empty text. -/
@[simp] theorem touches_nil_right (s : List Char) : touches s [] = false := by
  simp [touches]

/-- Of two characters both have to be characters of words. -/
@[simp] theorem touches_singleton_cons (c d : Char) (r : List Char) :
    touches [c] (d :: r) = (isDottedChar c && isDottedChar d) := rfl

/-- Only the last character of the first text counts. -/
@[simp] theorem touches_cons_cons (a b : Char) (s u : List Char) :
    touches (a :: b :: s) u = touches (b :: s) u := by
  simp [touches]

/-- What does not touch a text does not touch the start of it. -/
theorem touches_of_touches_append {s a b : List Char} (h : touches s (a ++ b) = false) :
    touches s a = false := by
  cases a with
  | nil => exact touches_nil_right s
  | cons d a => exact h

/-- Nothing touches a text that starts with no character of a word. -/
theorem touches_of_stops {u : List Char} (h : Stops isDottedChar u) (s : List Char) :
    touches s u = false := by
  cases u with
  | nil => exact touches_nil_right s
  | cons d u => simp [touches, stops_cons.mp h]

/-- A character that touches a text is one of a word. -/
theorem isDottedChar_of_touches {c : Char} {u : List Char} (h : touches [c] u = true) :
    isDottedChar c = true := (Bool.and_eq_true_iff.mp h).1

/-- A word touches every text that starts with a character of a word. -/
theorem stops_of_touches {t u : List Char} (ht : IsWord t) (h : touches t u = false) :
    Stops isDottedChar u := by
  have hlast := ht.dotted _ (List.getLast_mem ht.ne_nil)
  cases u with
  | nil => exact stops_nil _
  | cons d u => simpa [touches, List.getLast?_eq_some_getLast ht.ne_nil, hlast] using h

/-! ### Words and marks -/

/-- A name is a word. -/
theorem isWord_of_isName {name : List Char} (h : isName name = true) : IsWord name :=
  ⟨ne_nil_of_isName h, isDottedChar_of_mem_name h⟩

/-- A dotted name is a word. -/
theorem isWord_of_isDotted {name : List Char} (h : isDotted name = true) : IsWord name :=
  ⟨ne_nil_of_isDotted h, isDottedChar_of_mem_dotted h⟩

/-- A decimal numeral is a word. -/
theorem isWord_of_decimal? {digits : List Char} {n : Nat} (h : decimal? digits = some n) :
    IsWord digits := by
  obtain ⟨hne, hd, _⟩ := decimal?_eq_some_iff.mp h
  exact ⟨hne, fun c hc ↦ isDottedChar_of_isNameChar (isNameChar_of_isDigit (hd c hc))⟩

/-- A character of a word is a word. -/
theorem isWord_singleton {c : Char} (hc : isDottedChar c = true) : IsWord [c] :=
  ⟨by simp, by simpa using hc⟩

/-- A word with another word character before it is a word. -/
theorem IsWord.cons {t : List Char} (ht : IsWord t) {c : Char} (hc : isDottedChar c = true) :
    IsWord (c :: t) :=
  ⟨by simp, List.forall_mem_cons.mpr ⟨hc, ht.dotted⟩⟩

/-- Two words in a row are a word. -/
theorem IsWord.append {t t' : List Char} (ht : IsWord t) (ht' : IsWord t') : IsWord (t ++ t') :=
  ⟨by simp [ht.ne_nil], List.forall_mem_append.mpr ⟨ht.dotted, ht'.dotted⟩⟩

/-- A character of a word is no blank. -/
theorem isBlank_of_isDottedChar {c : Char} (h : isDottedChar c = true) : isBlank c = false := by
  cases hb : isBlank c with
  | false => rfl
  | true =>
    rw [isDottedChar_of_isBlank hb] at h
    cases h

/-! ### Lexemes of joined texts -/

/-- A character that touches what follows it goes into the first lexeme there. -/
theorem lexemes_cons_of_touches {c : Char} {r : List Char} (h : touches [c] r = true) :
    lexemes (c :: r) = (lexemes r).modifyHead (c :: ·) := by
  rw [lexemes, if_pos h]

/-- A character that touches nothing makes its own lexeme, or none if it is a blank. -/
theorem lexemes_cons {c : Char} {r : List Char} (h : touches [c] r = false) :
    lexemes (c :: r) = lexemes [c] ++ lexemes r := by
  rw [lexemes, lexemes, touches_nil_right, h]
  simp only [Bool.false_eq_true, if_false]
  split <;> rfl

/-- A blank is no lexeme. -/
theorem lexemes_blank {c : Char} (hc : isBlank c = true) : lexemes [c] = [] := by
  simp [lexemes, hc]

/-- A character that is no blank is one lexeme. -/
theorem lexemes_singleton {c : Char} (hc : isBlank c = false) : lexemes [c] = [[c]] := by
  simp [lexemes, hc]

/-- A character of a word starts the first lexeme, which is a word. -/
theorem exists_lexemes_cons {c : Char} (hc : isDottedChar c = true) (r : List Char) :
    ∃ t ts, IsWord t ∧ lexemes (c :: r) = t :: ts := by
  induction r generalizing c with
  | nil => exact ⟨[c], [], isWord_singleton hc, lexemes_singleton (isBlank_of_isDottedChar hc)⟩
  | cons d r ih =>
    cases hd : isDottedChar d with
    | false =>
      have htouch : touches [c] (d :: r) = false := touches_of_stops (stops_cons.mpr hd) _
      refine ⟨[c], lexemes (d :: r), isWord_singleton hc, ?_⟩
      rw [lexemes_cons htouch, lexemes_singleton (isBlank_of_isDottedChar hc)]
      rfl
    | true =>
      have htouch : touches [c] (d :: r) = true := by simp [hc, hd]
      obtain ⟨t, ts, ht, he⟩ := ih hd
      refine ⟨c :: t, ts, ht.cons hc, ?_⟩
      rw [lexemes_cons_of_touches htouch, he]
      rfl

/-- A text that is touched starts with a word. -/
theorem exists_lexemes_of_touches {s u : List Char} (h : touches s u = true) :
    ∃ t ts, IsWord t ∧ lexemes u = t :: ts := by
  cases u with
  | nil => cases (touches_nil_right s).symm.trans h
  | cons d u => exact exists_lexemes_cons (Bool.and_eq_true_iff.mp h).2 u

/-- Two texts that do not touch keep their lexemes when they are put together. -/
theorem lexemes_append {s u : List Char} (h : touches s u = false) :
    lexemes (s ++ u) = lexemes s ++ lexemes u := by
  induction s with
  | nil => rfl
  | cons c s ih =>
    cases s with
    | nil => exact lexemes_cons h
    | cons d s =>
      rw [touches_cons_cons] at h
      have hright : touches [c] (d :: s ++ u) = touches [c] (d :: s) := rfl
      rw [List.cons_append]
      cases hc : touches [c] (d :: s) with
      | false =>
        rw [lexemes_cons (hright.trans hc), lexemes_cons hc, ih h, List.append_assoc]
      | true =>
        -- The word that takes up the character is in the first text.
        obtain ⟨t, ts, _, he⟩ := exists_lexemes_of_touches hc
        rw [lexemes_cons_of_touches (hright.trans hc), lexemes_cons_of_touches hc, ih h, he]
        rfl

/-- Where two texts touch, the last word of the first one and the first word of the second one are
one word when the texts are put together. -/
theorem exists_lexemes_append_of_touches {s u : List Char} (h : touches s u = true) :
    ∃ ts t t' ts', IsWord t ∧ IsWord t' ∧ lexemes s = ts ++ [t] ∧ lexemes u = t' :: ts' ∧
      lexemes (s ++ u) = ts ++ (t ++ t') :: ts' := by
  induction s with
  | nil => cases h
  | cons c s ih =>
    cases s with
    | nil =>
      have hc := isDottedChar_of_touches h
      obtain ⟨t', ts', ht', he⟩ := exists_lexemes_of_touches h
      refine ⟨[], [c], t', ts', isWord_singleton hc, ht', ?_, he, ?_⟩
      · exact lexemes_singleton (isBlank_of_isDottedChar hc)
      · rw [List.singleton_append, lexemes_cons_of_touches h, he]
        rfl
    | cons d s =>
      rw [touches_cons_cons] at h
      obtain ⟨ts, t, t', ts', ht, ht', hs, hu, he⟩ := ih h
      have hright : touches [c] (d :: s ++ u) = touches [c] (d :: s) := rfl
      rw [List.cons_append]
      cases hc : touches [c] (d :: s) with
      | false =>
        refine ⟨lexemes [c] ++ ts, t, t', ts', ht, ht', ?_, hu, ?_⟩
        · rw [lexemes_cons hc, hs, List.append_assoc]
        · rw [lexemes_cons (hright.trans hc), he, List.append_assoc]
      | true =>
        rw [lexemes_cons_of_touches (hright.trans hc), lexemes_cons_of_touches hc, hs, he]
        cases ts with
        | nil =>
          exact ⟨[], c :: t, t', ts', ht.cons (isDottedChar_of_touches hc), ht', rfl, hu, rfl⟩
        | cons a ts => exact ⟨(c :: a) :: ts, t, t', ts', ht, ht', rfl, hu, rfl⟩

/-- Blanks before a text are left out. -/
theorem lexemes_blanks_append {w : List Char} (hw : Blanks w) (s : List Char) :
    lexemes (w ++ s) = lexemes s := by
  induction w with
  | nil => rfl
  | cons c w ih =>
    obtain ⟨hc, hw⟩ := blanks_cons.mp hw
    have htouch : touches [c] (w ++ s) = false := by simp [touches, isDottedChar_of_isBlank hc]
    rw [List.cons_append, lexemes_cons htouch, lexemes_blank hc, ih hw, List.nil_append]

/-- A run of blanks has no lexemes. -/
theorem lexemes_of_blanks {w : List Char} (hw : Blanks w) : lexemes w = [] := by
  simpa [lexemes] using lexemes_blanks_append hw []

/-- Blanks behind a text are left out. -/
theorem lexemes_append_blanks (s : List Char) {w : List Char} (hw : Blanks w) :
    lexemes (s ++ w) = lexemes s := by
  have hstops : Stops isDottedChar w := by
    simpa using (stops_nil isDottedChar).append hw.isDottedChar
  rw [lexemes_append (touches_of_stops hstops s), lexemes_of_blanks hw, List.append_nil]

/-- No word goes on behind a separator. -/
theorem Separator.stops_isDottedChar {sep : List Char} (h : Separator sep) (s : List Char) :
    Stops isDottedChar (sep ++ s) := by
  obtain ⟨c, w, rfl⟩ := List.exists_cons_of_ne_nil h.1
  exact stops_cons.mpr (h.2.isDottedChar c List.mem_cons_self)

/-- Two texts with a separator between them keep their lexemes. -/
theorem lexemes_append_separator {sep : List Char} (hsep : Separator sep) (s u : List Char) :
    lexemes (s ++ (sep ++ u)) = lexemes s ++ lexemes u := by
  rw [lexemes_append (touches_of_stops (hsep.stops_isDottedChar u) s),
    lexemes_blanks_append hsep.2]

/-- A word is one lexeme. -/
theorem lexemes_of_isWord {t : List Char} (ht : IsWord t) : lexemes t = [t] := by
  induction t with
  | nil => exact absurd rfl ht.ne_nil
  | cons c r ih =>
    obtain ⟨hc, hr⟩ := List.forall_mem_cons.mp ht.dotted
    cases r with
    | nil => exact lexemes_singleton (isBlank_of_isDottedChar hc)
    | cons d r =>
      have htouch : touches [c] (d :: r) = true := by simp [hc, hr d List.mem_cons_self]
      rw [lexemes_cons_of_touches htouch, ih ⟨by simp, hr⟩]
      rfl

/-- A word up to the place where no word goes on is the first lexeme. -/
theorem lexemes_word_append {t s : List Char} (ht : IsWord t) (hs : Stops isDottedChar s) :
    lexemes (t ++ s) = t :: lexemes s := by
  rw [lexemes_append (touches_of_stops hs t), lexemes_of_isWord ht, List.singleton_append]

/-- A word before a separator is the first lexeme. -/
theorem lexemes_word_separator_append {t sep : List Char} (ht : IsWord t) (hsep : Separator sep)
    (s : List Char) : lexemes (t ++ (sep ++ s)) = t :: lexemes s := by
  rw [lexemes_append_separator hsep, lexemes_of_isWord ht, List.singleton_append]

/-- A word before blanks after which no word goes on is the first lexeme. -/
theorem lexemes_word_blanks_append {t w s : List Char} (ht : IsWord t) (hw : Blanks w)
    (hs : Stops isDottedChar s) : lexemes (t ++ (w ++ s)) = t :: lexemes s := by
  rw [lexemes_word_append ht (hs.append hw.isDottedChar), lexemes_blanks_append hw]

/-- A mark is a lexeme, and what stands behind it keeps its lexemes. -/
theorem lexemes_mark_cons {m : Char} (hm : IsMark m) (s : List Char) :
    lexemes (m :: s) = [m] :: lexemes s := by
  have htouch : touches [m] s = false := by simp [touches, hm.dotted]
  rw [lexemes_cons htouch, lexemes_singleton hm.blank, List.singleton_append]

/-- What stands before a mark keeps its lexemes. -/
theorem lexemes_append_mark {m : Char} (hm : IsMark m) (s u : List Char) :
    lexemes (s ++ m :: u) = lexemes s ++ [m] :: lexemes u := by
  rw [lexemes_append (touches_of_stops (stops_cons.mpr hm.dotted) s), lexemes_mark_cons hm]

/-! ### Taking texts apart -/

/-- A text without lexemes is a run of blanks. -/
theorem lexemes_eq_nil_iff {s : List Char} : lexemes s = [] ↔ Blanks s := by
  constructor
  · intro h
    fun_induction lexemes s with
    | case1 => exact blanks_nil
    | case2 c r hc ih =>
      obtain ⟨t, ts, _, he⟩ := exists_lexemes_of_touches hc
      rw [he] at h
      cases h
    | case3 c r _ hb ih => exact blanks_cons.mpr ⟨hb, ih h⟩
    | case4 c r _ _ ih => cases h
  · exact lexemes_of_blanks

/-- A text is taken apart at its first lexeme. -/
theorem exists_of_lexemes_eq_cons {s t : List Char} {ts : List (List Char)}
    (h : lexemes s = t :: ts) :
    ∃ w r, Blanks w ∧ touches t r = false ∧ s = w ++ (t ++ r) ∧ lexemes r = ts := by
  fun_induction lexemes s generalizing t with
  | case1 => cases h
  | case2 c r hc ih =>
    obtain ⟨t', ts', ht', he⟩ := exists_lexemes_of_touches hc
    rw [he] at h
    obtain ⟨rfl, rfl⟩ := List.cons.inj h
    obtain ⟨w, r', hw, htouch, rfl, hr⟩ := ih he
    -- The word starts right away, since no blank is touched.
    cases w with
    | nil =>
      obtain ⟨a, t'', rfl⟩ := List.exists_cons_of_ne_nil ht'.ne_nil
      exact ⟨[], r', blanks_nil, by rwa [touches_cons_cons], rfl, hr⟩
    | cons b w =>
      have hb := isDottedChar_of_isBlank (blanks_cons.mp hw).1
      simp [hb] at hc
  | case3 c r _ hb ih =>
    obtain ⟨w, r', hw, htouch, rfl, hr⟩ := ih h
    exact ⟨c :: w, r', blanks_cons.mpr ⟨hb, hw⟩, htouch, rfl, hr⟩
  | case4 c r hc _ ih =>
    obtain ⟨rfl, rfl⟩ := List.cons.inj h
    exact ⟨[], r, blanks_nil, by simpa using hc, rfl, rfl⟩

/-- Two words that come first have a separator between them. -/
theorem exists_of_lexemes_eq_words {s t t' : List Char} {ts : List (List Char)} (ht : IsWord t)
    (ht' : IsWord t') (h : lexemes s = t :: t' :: ts) :
    ∃ w sep r, Blanks w ∧ Separator sep ∧ s = w ++ (t ++ (sep ++ (t' ++ r))) ∧
      lexemes r = ts := by
  obtain ⟨w, u, hw, htouch, rfl, hu⟩ := exists_of_lexemes_eq_cons h
  obtain ⟨sep, r, hsep, _, rfl, hr⟩ := exists_of_lexemes_eq_cons hu
  refine ⟨w, sep, r, hw, ⟨?_, hsep⟩, rfl, hr⟩
  rintro rfl
  obtain ⟨c, v, rfl⟩ := List.exists_cons_of_ne_nil ht'.ne_nil
  have hc := stops_cons.mp (stops_of_touches ht htouch)
  rw [ht'.dotted c List.mem_cons_self] at hc
  cases hc

/-- A text is taken apart at any of its marks. -/
theorem exists_of_lexemes_eq_append_mark {s : List Char} {m : Char} {ts ts' : List (List Char)}
    (h : lexemes s = ts ++ [m] :: ts') :
    ∃ a b, s = a ++ m :: b ∧ lexemes a = ts ∧ lexemes b = ts' := by
  induction ts generalizing s with
  | nil =>
    obtain ⟨w, r, hw, _, rfl, hr⟩ := exists_of_lexemes_eq_cons h
    exact ⟨w, r, rfl, lexemes_of_blanks hw, hr⟩
  | cons t ts ih =>
    obtain ⟨w, r, hw, htouch, rfl, hr⟩ := exists_of_lexemes_eq_cons h
    have hself : lexemes t = [t] := by
      rw [lexemes_blanks_append hw, lexemes_append htouch, hr] at h
      exact List.append_cancel_right (h.trans List.singleton_append.symm)
    obtain ⟨a, b, rfl, ha, hb⟩ := ih hr
    refine ⟨w ++ (t ++ a), b, by simp, ?_, hb⟩
    rw [lexemes_blanks_append hw, lexemes_append (touches_of_touches_append htouch), hself, ha]
    rfl

/-- A text that is split at a mark has its lexemes split there. -/
theorem splitOn_lexemes {m : Char} (hm : IsMark m) (s : List Char) :
    (lexemes s).splitOn [m] = (s.splitOn m).map lexemes := by
  induction hn : s.length using Nat.strongRecOn generalizing s with
  | ind n ih =>
    by_cases hmem : m ∈ s
    · obtain ⟨a, b, rfl⟩ := List.append_of_mem hmem
      simp only [List.length_append, List.length_cons] at hn
      rw [lexemes_append_mark hm, List.splitOn_append_cons_self, List.splitOn_append_cons_self,
        List.map_append, ih a.length (by omega) a rfl, ih b.length (by omega) b rfl]
    · have hlexeme : [m] ∉ lexemes s := by
        intro h
        obtain ⟨ts, ts', he⟩ := List.append_of_mem h
        obtain ⟨a, b, rfl, _, _⟩ := exists_of_lexemes_eq_append_mark he
        exact hmem (by simp)
      rw [List.splitOn_eq_singleton hlexeme, List.splitOn_eq_singleton hmem, List.map_singleton]

end WireSchema.Text
