import Mathlib.Order.Bounds.Basic
import WireSchema.Proofs.Schema.Outlines
import WireSchema.Proofs.Text.Utf8

/-!
# Closing braces by their offsets

The brace that closes another one, found among the bytes of a text: the scan counts the braces that
are open, in a number without a sign, and answers the offset at which none is open any more. From
an opening brace on the count stays above zero until the scan ends, so it never has to go below. The
main statement says that the answer is the first offset up to which as many braces are closed as
opened, that the text can be cut before and behind it, and that the two pieces are those into which
`splitBrace?` splits the characters.
-/

namespace WireSchema

open Text

/-! ### The first number with a property -/

/-- The answer is the least number with the property, or nothing if no number has it. -/
def FindsLeast (p : Nat → Prop) : Option Nat → Prop
  | none => ∀ k, ¬p k
  | some k => IsLeast {k | p k} k

namespace FindsLeast

variable {p q : Nat → Prop} {found : Option Nat}

/-- A number is answered exactly if it is the least one. -/
theorem eq_some_iff (h : FindsLeast p found) {k : Nat} :
    found = some k ↔ IsLeast {k | p k} k := by
  cases found with
  | none => exact ⟨nofun, fun hk ↦ absurd hk.1 (h k)⟩
  | some m => exact Option.some_inj.trans ⟨fun hm ↦ hm ▸ h, h.unique⟩

/-- Nothing is answered exactly if there is no such number. -/
theorem eq_none_iff (h : FindsLeast p found) : found = none ↔ ∀ k, ¬p k := by
  cases found with
  | none => exact ⟨fun _ ↦ h, fun _ ↦ rfl⟩
  | some m => exact ⟨nofun, fun hp ↦ absurd h.1 (hp m)⟩

/-- Numbers that are all moved up by the same amount keep their least one. -/
theorem map_add (h : FindsLeast p found) {n : Nat} (hq : ∀ m, q m ↔ ∃ k, m = n + k ∧ p k) :
    FindsLeast q (found.map (n + ·)) := by
  cases found with
  | none =>
    intro m hm
    obtain ⟨k, _, hk⟩ := (hq m).mp hm
    exact h k hk
  | some k =>
    refine ⟨(hq _).mpr ⟨k, rfl, h.1⟩, fun m hm ↦ ?_⟩
    obtain ⟨j, rfl, hj⟩ := (hq m).mp hm
    exact Nat.add_le_add_left (h.2 hj) n

end FindsLeast

namespace Outline

/-! ### The scan -/

/-- The byte of an opening brace. -/
def openByte : UInt8 := 0x7b

/-- The byte of a closing brace. -/
def closeByte : UInt8 := 0x7d

/-- Why a scan for a closing brace cannot go on. -/
inductive ScanFault
  /-- A brace is closed while none is open, and there is no number below zero to count on with. -/
  | underflow
  deriving DecidableEq, Repr

/-- The number of open braces behind a byte. It has room for as many braces as a text has bytes, so
counting up cannot fail. -/
def depthAfter (depth : Nat) (byte : UInt8) : Except ScanFault Nat :=
  if byte = openByte then .ok (depth + 1)
  else if byte = closeByte then
    if depth = 0 then .error .underflow else .ok (depth - 1)
  else .ok depth

/-- The offset of the closing brace behind which no brace is open, if there is one. The first byte
stands at `offset`, and `depth` braces are open before it. -/
def scanBrace (depth offset : Nat) : List UInt8 → Except ScanFault (Option Nat)
  | [] => .ok none
  | byte :: bytes =>
    match depthAfter depth byte with
    | .error e => .error e
    | .ok next =>
      if byte = closeByte ∧ next = 0 then .ok (some offset)
      else scanBrace next (offset + 1) bytes

/-- The offset of the brace that closes the one at `start`, if there is one. -/
def closingOffset (text : String) (start : Nat) : Except ScanFault (Option Nat) :=
  scanBrace 0 start ((utf8 text).drop start)

/-! ### Steps and runs of the scan -/

/-- While a brace is open a byte can be counted, and the count stays right. -/
theorem exists_depthAfter {depth : Nat} (h : 0 < depth) (byte : UInt8) :
    ∃ next, depthAfter depth byte = .ok next ∧
      next + [byte].count closeByte = depth + [byte].count openByte := by
  simp only [depthAfter, List.count_singleton, beq_iff_eq]
  by_cases hopen : byte = openByte
  · subst hopen
    exact ⟨depth + 1, rfl, rfl⟩
  · rw [if_neg hopen]
    by_cases hclose : byte = closeByte
    · subst hclose
      refine ⟨depth - 1, if_neg (Nat.ne_of_gt h), ?_⟩
      simp only [if_true, if_neg hopen]
      omega
    · exact ⟨depth, if_neg hclose, by rw [if_neg hopen, if_neg hclose]⟩

/-- A byte that can be counted ends the scan or is left behind. -/
theorem scanBrace_cons {depth next offset : Nat} {byte : UInt8} {bytes : List UInt8}
    (h : depthAfter depth byte = .ok next) :
    scanBrace depth offset (byte :: bytes) =
      if byte = closeByte ∧ next = 0 then .ok (some offset)
      else scanBrace next (offset + 1) bytes := by
  rw [scanBrace, h]

/-- With `depth` braces open before the bytes, none is open behind the one at place `k`. -/
def Closes (depth : Nat) (bytes : List UInt8) (k : Nat) : Prop :=
  k < bytes.length ∧
    (bytes.take (k + 1)).count closeByte = depth + (bytes.take (k + 1)).count openByte

section Step

variable {depth next : Nat} {byte : UInt8} {bytes : List UInt8}
  (hstep : next + [byte].count closeByte = depth + [byte].count openByte)
include hstep

/-- None is open behind the first byte exactly if the count comes to zero there. -/
theorem closes_cons_zero : Closes depth (byte :: bytes) 0 ↔ next = 0 := by
  simp only [Closes, List.length_cons, List.take_succ_cons, List.take_zero]
  omega

/-- Behind the first byte the count goes on from what it is there. -/
theorem closes_cons_succ {k : Nat} :
    Closes depth (byte :: bytes) (k + 1) ↔ Closes next bytes k := by
  have hcount (a : UInt8) (s : List UInt8) : (byte :: s).count a = [byte].count a + s.count a := by
    rw [← List.count_append, List.singleton_append]
  rw [Closes, Closes, List.length_cons, List.take_succ_cons, hcount closeByte, hcount openByte]
  omega

end Step

/-- From an open brace on the scan never fails, and answers the first place where none is open. -/
theorem exists_scanBrace {depth : Nat} (h : 0 < depth) (offset : Nat) (bytes : List UInt8) :
    ∃ found, scanBrace depth offset bytes = .ok (found.map (offset + ·)) ∧
      FindsLeast (Closes depth bytes) found := by
  induction bytes generalizing depth offset with
  | nil => exact ⟨none, rfl, fun k hk ↦ absurd hk.1 (Nat.not_lt_zero k)⟩
  | cons byte bytes ih =>
    obtain ⟨next, hnext, hstep⟩ := exists_depthAfter h byte
    rw [scanBrace_cons hnext]
    by_cases hzero : next = 0
    · -- only a closing brace takes the count down
      have hclose : byte = closeByte := by
        have hpos : 0 < [byte].count closeByte := by omega
        exact (List.mem_singleton.mp (List.count_pos_iff.mp hpos)).symm
      refine ⟨some 0, if_pos ⟨hclose, hzero⟩, (closes_cons_zero hstep).mpr hzero, ?_⟩
      exact fun k _ ↦ Nat.zero_le k
    · obtain ⟨found, hscan, hleast⟩ := ih (Nat.pos_of_ne_zero hzero) (offset + 1)
      refine ⟨found.map (1 + ·), ?_, hleast.map_add fun m ↦ ?_⟩
      · rw [if_neg fun hend ↦ hzero hend.2, hscan, Option.map_map]
        simp only [Function.comp_def, Nat.add_assoc]
      · cases m with
        | zero =>
          rw [closes_cons_zero hstep]
          constructor
          · exact fun hz ↦ absurd hz hzero
          · rintro ⟨j, hj, _⟩
            omega
        | succ k =>
          rw [closes_cons_succ hstep]
          constructor
          · exact fun hk ↦ ⟨k, Nat.add_comm k 1, hk⟩
          · rintro ⟨j, hj, hc⟩
            rwa [show k = j by omega]

/-! ### The scan and the characters -/

/-- Bytes without braces are left behind. -/
theorem scanBrace_append {u : List UInt8} (hopen : openByte ∉ u) (hclose : closeByte ∉ u)
    (depth offset : Nat) (bytes : List UInt8) :
    scanBrace depth offset (u ++ bytes) = scanBrace depth (offset + u.length) bytes := by
  induction u generalizing offset with
  | nil => rfl
  | cons byte u ih =>
    simp only [List.mem_cons, not_or] at hopen hclose
    have hstep : depthAfter depth byte = .ok depth := by
      rw [depthAfter, if_neg (Ne.symm hopen.1), if_neg (Ne.symm hclose.1)]
    rw [List.cons_append, scanBrace_cons hstep, if_neg fun h ↦ hclose.1 h.1.symm,
      ih hopen.2 hclose.2, List.length_cons, Nat.add_assoc, Nat.add_comm 1]

/-- An opening brace counts, and stands in the body. -/
private theorem splitBrace?_open (depth : Nat) (s : List Char) :
    splitBrace? depth ('\x7b' :: s) =
      (splitBrace? (depth + 1) s).map fun (body, rest) ↦ ('\x7b' :: body, rest) := by
  cases depth <;> rfl

/-- A closing brace of an inner one stands in the body. -/
private theorem splitBrace?_close (depth : Nat) (s : List Char) :
    splitBrace? (depth + 1) ('\x7d' :: s) =
      (splitBrace? depth s).map fun (body, rest) ↦ ('\x7d' :: body, rest) := rfl

/-- Every other character stands in the body. -/
private theorem splitBrace?_other {c : Char} (hopen : c ≠ '\x7b') (hclose : c ≠ '\x7d')
    (depth : Nat) (s : List Char) :
    splitBrace? depth (c :: s) =
      (splitBrace? depth s).map fun (body, rest) ↦ (c :: body, rest) := by
  cases depth <;> rw [splitBrace?, if_neg hopen, if_neg hclose]

/-- A body gets longer by the bytes of the character in front of it. -/
private theorem map_length_cons (c : Char) (offset : Nat)
    (found : Option (List Char × List Char)) :
    (found.map fun (body, rest) ↦ (c :: body, rest)).map
        (fun r ↦ offset + (utf8 (String.ofList r.1)).length) =
      found.map fun r ↦
        offset + (String.utf8EncodeChar c).length + (utf8 (String.ofList r.1)).length := by
  cases found with
  | none => rfl
  | some r =>
    simp only [Option.map_some, utf8_ofList_cons, List.length_append, Nat.add_assoc]

/-- The scan over the bytes of a text finds the brace at which its characters are split. It counts
one brace more, which is the one that the characters stand behind. -/
theorem scanBrace_utf8 (depth offset : Nat) (s : List Char) :
    scanBrace (depth + 1) offset (utf8 (String.ofList s)) =
      .ok ((splitBrace? depth s).map fun r ↦ offset + (utf8 (String.ofList r.1)).length) := by
  induction s generalizing depth offset with
  | nil => rfl
  | cons c s ih =>
    rw [utf8_ofList_cons]
    by_cases hopen : c = '\x7b'
    · subst hopen
      have hbytes : String.utf8EncodeChar '\x7b' = [openByte] := rfl
      have hstep : depthAfter (depth + 1) openByte = .ok (depth + 2) := rfl
      rw [splitBrace?_open, map_length_cons, hbytes, List.singleton_append, scanBrace_cons hstep,
        if_neg fun h ↦ absurd h.1 (by decide), ih]
      rfl
    by_cases hclose : c = '\x7d'
    · subst hclose
      cases depth with
      | zero => rfl
      | succ depth =>
        have hbytes : String.utf8EncodeChar '\x7d' = [closeByte] := rfl
        have hstep : depthAfter (depth + 2) closeByte = .ok (depth + 1) := rfl
        rw [splitBrace?_close, map_length_cons, hbytes, List.singleton_append,
          scanBrace_cons hstep, if_neg fun h ↦ absurd h.2 (Nat.succ_ne_zero depth), ih]
        rfl
    · have hopen' : openByte ∉ String.utf8EncodeChar c := fun h ↦
        hopen (eq_of_mem_utf8EncodeChar (a := '\x7b') (by decide) h)
      have hclose' : closeByte ∉ String.utf8EncodeChar c := fun h ↦
        hclose (eq_of_mem_utf8EncodeChar (a := '\x7d') (by decide) h)
      rw [splitBrace?_other hopen hclose, map_length_cons, scanBrace_append hopen' hclose', ih]

/-! ### Closing braces -/

/-- The bytes from one offset to another, both included. -/
def span (bytes : List UInt8) (first last : Nat) : List UInt8 := (bytes.take (last + 1)).drop first

/-- From the opening brace at `start` to the byte at `stop`, both included, as many braces are
closed as opened. -/
structure BalancedTo (bytes : List UInt8) (start stop : Nat) : Prop where
  after : start < stop
  within : stop < bytes.length
  balanced : (span bytes start stop).count closeByte = (span bytes start stop).count openByte

/-- Offsets are places behind the opening brace, which counts as one. -/
theorem balancedTo_iff (before bytes : List UInt8) (stop : Nat) :
    BalancedTo (before ++ openByte :: bytes) before.length stop ↔
      ∃ k, stop = before.length + 1 + k ∧ Closes 1 bytes k := by
  have hspan (k : Nat) : span (before ++ openByte :: bytes) before.length (before.length + 1 + k) =
      openByte :: bytes.take (k + 1) := by
    rw [span, show before.length + 1 + k + 1 = before.length + (k + 2) by omega,
      List.take_length_add_append, List.drop_left, List.take_succ_cons]
  constructor
  · rintro ⟨hafter, hwithin, hbalanced⟩
    obtain ⟨k, rfl⟩ := Nat.exists_eq_add_of_le hafter
    refine ⟨k, rfl, ?_, ?_⟩
    · rw [List.length_append, List.length_cons] at hwithin
      omega
    · rw [hspan, List.count_cons_self, List.count_cons_of_ne (by decide)] at hbalanced
      omega
  · rintro ⟨k, rfl, hwithin, hcount⟩
    refine ⟨by omega, ?_, ?_⟩
    · rw [List.length_append, List.length_cons]
      omega
    · rw [hspan, List.count_cons_self, List.count_cons_of_ne (by decide)]
      omega

/-- An opening brace is one byte among those of a text. -/
theorem utf8_append_open (before rest : List Char) :
    utf8 (String.ofList (before ++ '\x7b' :: rest)) =
      utf8 (String.ofList before) ++ openByte :: utf8 (String.ofList rest) := by
  rw [utf8_ofList_append, utf8_ofList_cons]
  rfl

/-- A closing brace is one byte among those of a text. -/
theorem utf8_append_close (before rest : List Char) :
    utf8 (String.ofList (before ++ '\x7d' :: rest)) =
      utf8 (String.ofList before) ++ closeByte :: utf8 (String.ofList rest) := by
  rw [utf8_ofList_append, utf8_ofList_cons]
  rfl

section Brace

variable (before rest : List Char)

/-- The scan from an opening brace goes on behind it with one open brace. -/
private theorem closingOffset_eq_scanBrace :
    closingOffset (String.ofList (before ++ '\x7b' :: rest)) (utf8 (String.ofList before)).length =
      scanBrace 1 ((utf8 (String.ofList before)).length + 1) (utf8 (String.ofList rest)) := by
  have hstep : depthAfter 0 openByte = .ok 1 := rfl
  rw [closingOffset, utf8_append_open, List.drop_left, scanBrace_cons hstep,
    if_neg fun h ↦ absurd h.1 (by decide)]

/-- The scan from an opening brace ends where the characters behind that brace are split. -/
theorem closingOffset_eq_splitBrace? :
    closingOffset (String.ofList (before ++ '\x7b' :: rest)) (utf8 (String.ofList before)).length =
      .ok ((splitBrace? 0 rest).map fun r ↦
        (utf8 (String.ofList before)).length + 1 + (utf8 (String.ofList r.1)).length) := by
  rw [closingOffset_eq_scanBrace, scanBrace_utf8]

/-- The scan from an opening brace finds the first offset at which the braces are balanced. -/
theorem exists_closingOffset :
    ∃ found, closingOffset (String.ofList (before ++ '\x7b' :: rest))
        (utf8 (String.ofList before)).length = .ok found ∧
      FindsLeast (BalancedTo (utf8 (String.ofList (before ++ '\x7b' :: rest)))
        (utf8 (String.ofList before)).length) found := by
  obtain ⟨found, hscan, hleast⟩ := exists_scanBrace Nat.one_pos
    ((utf8 (String.ofList before)).length + 1) (utf8 (String.ofList rest))
  rw [closingOffset_eq_scanBrace, utf8_append_open]
  exact ⟨_, hscan, hleast.map_add fun stop ↦ balancedTo_iff _ _ stop⟩

end Brace

/-- The reader splits a text behind the brace of a header, where the scan from that brace ends. -/
theorem exists_closingOffset_of_splitHeader? {s before name rest : List Char}
    (h : splitHeader? false s = some (before, name, rest)) :
    ∃ start, (utf8 (String.ofList s))[start]? = some openByte ∧
      closingOffset (String.ofList s) start =
        .ok ((splitBrace? 0 rest).map fun r ↦
          start + 1 + (utf8 (String.ofList r.1)).length) := by
  obtain ⟨t, ht, rfl⟩ := exists_header_of_splitHeader? h
  obtain ⟨sep, w, _, _, _, rfl⟩ := header?_eq_some_iff.mp ht
  have hs : before ++ ("struct".toList ++ (sep ++ (name ++ (w ++ '\x7b' :: rest)))) =
      before ++ ("struct".toList ++ (sep ++ (name ++ w))) ++ '\x7b' :: rest := by
    simp only [List.append_assoc]
  rw [hs]
  refine ⟨_, ?_, closingOffset_eq_splitBrace? _ rest⟩
  rw [utf8_append_open, List.getElem?_append_right (Nat.le_refl _), Nat.sub_self]
  rfl

/-- Behind a body that follows an opening brace a text is cut into the body and what follows. -/
private theorem cut_of_body (before body tail : List Char) :
    let text := String.ofList (before ++ '\x7b' :: (body ++ '\x7d' :: tail))
    let start := (utf8 (String.ofList before)).length
    let stop := start + 1 + (utf8 (String.ofList body)).length
    String.Pos.Raw.IsValid text ⟨stop⟩ ∧ String.Pos.Raw.IsValid text ⟨stop + 1⟩ ∧
      ((utf8 text).take stop).drop (start + 1) = utf8 (String.ofList body) ∧
      (utf8 text).drop (stop + 1) = utf8 (String.ofList tail) := by
  intro text start stop
  have hfront : (utf8 (String.ofList (before ++ '\x7b' :: body))).length = stop := by
    rw [utf8_append_open, List.length_append, List.length_cons]
    omega
  have hbehind : (utf8 (String.ofList (before ++ '\x7b' :: (body ++ ['\x7d'])))).length =
      stop + 1 := by
    rw [utf8_append_open, utf8_append_close, List.length_append, List.length_cons,
      List.length_append]
    have hone : (closeByte :: utf8 (String.ofList [])).length = 1 := rfl
    omega
  refine ⟨?_, ?_, ?_, ?_⟩
  · rw [← hfront]
    have hcut := isValid_length_utf8 (before ++ '\x7b' :: body) ('\x7d' :: tail)
    simpa only [List.append_assoc, List.cons_append] using hcut
  · rw [← hbehind]
    have hcut := isValid_length_utf8 (before ++ '\x7b' :: (body ++ ['\x7d'])) tail
    simpa only [List.append_assoc, List.cons_append, List.nil_append] using hcut
  · -- what the scan leaves behind the opening brace starts with the body
    have hstart : (utf8 text).drop (start + 1) =
        utf8 (String.ofList body) ++ closeByte :: utf8 (String.ofList tail) := by
      rw [utf8_append_open, utf8_append_close, List.append_cons]
      exact List.drop_left' List.length_append
    have hlength : stop - (start + 1) = (utf8 (String.ofList body)).length :=
      Nat.add_sub_cancel_left _ _
    rw [List.drop_take, hstart, hlength, List.take_left]
  · have htext : utf8 text =
        utf8 (String.ofList (before ++ '\x7b' :: (body ++ ['\x7d']))) ++
          utf8 (String.ofList tail) := by
      rw [← utf8_ofList_append]
      simp only [text, List.append_assoc, List.cons_append, List.nil_append]
    rw [htext]
    exact List.drop_left' hbehind

/-- From an opening brace on the scan never has to go below zero, and it answers the first offset up
to which as many braces are closed as opened, if there is one. The text can be cut before and behind
the brace that stands there, and the pieces are those of the characters: the body between the two
braces, and what follows. -/
theorem closingOffset_first_balanced (text : String) {start : Nat}
    (hopen : (utf8 text)[start]? = some openByte) :
    ∃ found, closingOffset text start = .ok found ∧
      (∀ stop, found = some stop ↔
        IsLeast {stop | BalancedTo (utf8 text) start stop} stop) ∧
      (found = none ↔ ∀ stop, ¬BalancedTo (utf8 text) start stop) ∧
      (∀ stop, found = some stop →
        String.Pos.Raw.IsValid text ⟨stop⟩ ∧ String.Pos.Raw.IsValid text ⟨stop + 1⟩) ∧
      ∃ before rest, text.toList = before ++ '\x7b' :: rest ∧
        (utf8 (String.ofList before)).length = start ∧
        (splitBrace? 0 rest).map (fun r ↦ (utf8 (String.ofList r.1), utf8 (String.ofList r.2))) =
          found.map fun stop ↦
            (((utf8 text).take stop).drop (start + 1), (utf8 text).drop (stop + 1)) := by
  rw [← String.ofList_toList (s := text)] at hopen ⊢
  generalize text.toList = s at hopen ⊢
  obtain ⟨before, rest, rfl, rfl⟩ := exists_append_of_getElem?_utf8 (c := '\x7b') (by decide) hopen
  obtain ⟨found, hfound, hleast⟩ := exists_closingOffset before rest
  refine ⟨found, hfound, fun stop ↦ hleast.eq_some_iff, hleast.eq_none_iff, ?_⟩
  rw [closingOffset_eq_splitBrace?, Except.ok.injEq] at hfound
  rw [String.toList_ofList]
  cases hsplit : splitBrace? 0 rest with
  | none =>
    rw [hsplit] at hfound
    subst hfound
    exact ⟨nofun, before, rest, rfl, rfl, by rw [hsplit]; rfl⟩
  | some r =>
    rw [hsplit] at hfound
    subst hfound
    have hrest := eq_append_of_splitBrace? hsplit
    subst hrest
    obtain ⟨hvalid, hvalid', hbody, htail⟩ := cut_of_body before r.1 r.2
    refine ⟨?_, before, r.1 ++ '\x7d' :: r.2, rfl, rfl, ?_⟩
    · intro stop hstop
      cases hstop
      exact ⟨hvalid, hvalid'⟩
    · rw [hsplit, Option.map_some, Option.map_some, Option.map_some, hbody, htail]

/-- Braces in braces, with characters of two bytes before, between and behind them. -/
theorem closingOffset_of_nested_braces :
    (utf8 "é\x7b\x7bß\x7dü\x7dx")[2]? = some openByte ∧
      closingOffset "é\x7b\x7bß\x7dü\x7dx" 2 = .ok (some 9) ∧
      IsLeast {stop | BalancedTo (utf8 "é\x7b\x7bß\x7dü\x7dx") 2 stop} 9 ∧
      String.Pos.Raw.IsValid "é\x7b\x7bß\x7dü\x7dx" ⟨9⟩ ∧
      String.Pos.Raw.IsValid "é\x7b\x7bß\x7dü\x7dx" ⟨10⟩ := by
  have hopen : (utf8 "é\x7b\x7bß\x7dü\x7dx")[2]? = some openByte := by decide +kernel
  have hscan : closingOffset "é\x7b\x7bß\x7dü\x7dx" 2 = .ok (some 9) := by rfl
  obtain ⟨found, hfound, hleast, _, hvalid, _⟩ := closingOffset_first_balanced _ hopen
  have hnine : found = some 9 := Except.ok.inj (hfound.symm.trans hscan)
  exact ⟨hopen, hscan, (hleast 9).mp hnine, hvalid 9 hnine⟩

/-- From another place the count may have to go below zero. -/
example : closingOffset "a\x7d" 0 = .error .underflow := rfl

end Outline

end WireSchema
