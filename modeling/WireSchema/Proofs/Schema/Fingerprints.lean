import WireSchema.Proofs.Schema.Acceptance
import WireSchema.Schema.Compose

/-!
# What the hash tells apart

A step of the hash can be taken back, since the prime is odd: a product with it tells the other
factor. Two states therefore stay different whatever bytes follow, and a single other byte makes
another hash. Of two other bytes in a row the second one would have to undo what the first one did
to the product; but a change of the lowest eight bits, multiplied by the prime, always shows above
them, where the second byte is not mixed in. The main statement says so of byte strings and of the
canonical texts of schemas.
-/

namespace WireSchema

open Text

/-- One byte of a byte string, or two bytes in a row, are others in the second string. -/
def IsSmallEdit (a b : List UInt8) : Prop :=
  ∃ before u v after, a = before ++ u ++ after ∧ b = before ++ v ++ after ∧
    u.length = v.length ∧ (u.length = 1 ∨ u.length = 2) ∧ u ≠ v

namespace Fingerprint

variable {x y state : UInt32}

/-! ### The product with the prime -/

/-- The word that a product with the prime is multiplied by to get the other factor. -/
def primeInverse : UInt32 := 899433627

/-- The product with the prime can be divided. -/
theorem mul_prime_mul_primeInverse (x : UInt32) : x * prime * primeInverse = x := by
  have hone : prime * primeInverse = 1 := by decide
  rw [UInt32.mul_assoc, hone, UInt32.mul_one]

/-- Different words have different products with the prime. -/
theorem mul_prime_inj : x * prime = y * prime ↔ x = y := by
  constructor
  · intro h
    rw [← mul_prime_mul_primeInverse x, h, mul_prime_mul_primeInverse]
  · rintro rfl
    rfl

/-- The product of the prime and a number of eight bits shows above the lowest eight bits, and does
not go past 32 bits. -/
private theorem mul_prime_add_div_ne {n d : Nat} (hpos : 0 < d) (hlt : d < 256) :
    n * 16777619 % 4294967296 / 256 ≠ (n + d) * 16777619 % 4294967296 / 256 := by
  intro h
  have hsum : (n + d) * 16777619 = n * 16777619 + d * 16777619 := Nat.add_mul ..
  -- whether the sum wraps around or not, the two remainders are further apart than 256
  rcases Nat.lt_or_ge (n * 16777619 / 4294967296) ((n + d) * 16777619 / 4294967296) with
    hwraps | hstays
  · omega
  · omega

/-- Words that differ in the lowest eight bits only have products that differ above them. -/
theorem eq_of_mul_prime_div (h : x.toNat / 256 = y.toNat / 256)
    (hmul : (x * prime).toNat / 256 = (y * prime).toNat / 256) : x = y := by
  have hprime : prime.toNat = 16777619 := rfl
  rw [UInt32.toNat_mul, UInt32.toNat_mul, hprime] at hmul
  apply UInt32.toNat_inj.mp
  rcases Nat.lt_trichotomy x.toNat y.toNat with hlt | heq | hgt
  · obtain ⟨d, hd⟩ := Nat.exists_eq_add_of_lt hlt
    rw [hd, Nat.add_assoc] at hmul
    exact absurd hmul (mul_prime_add_div_ne (by omega) (by omega))
  · exact heq
  · obtain ⟨d, hd⟩ := Nat.exists_eq_add_of_lt hgt
    rw [hd, Nat.add_assoc] at hmul
    exact absurd hmul.symm (mul_prime_add_div_ne (by omega) (by omega))

/-- A byte is mixed into the lowest eight bits only. -/
theorem toNat_xor_byte_div (x : UInt32) (byte : UInt8) :
    (x ^^^ byte.toUInt32).toNat / 256 = x.toNat / 256 := by
  have hbyte : byte.toNat >>> 8 = 0 := Nat.shiftRight_eq_zero byte.toNat 8 byte.toNat_lt
  have hdiv (n : Nat) : n / 256 = n >>> 8 := (Nat.shiftRight_eq_div_pow n 8).symm
  rw [UInt32.toNat_xor, UInt8.toNat_toUInt32, hdiv, hdiv, Nat.shiftRight_xor_distrib, hbyte,
    Nat.xor_zero]

/-! ### Steps -/

/-- The same byte keeps different states apart. -/
theorem step_left_inj (byte : UInt8) : step x byte = step y byte ↔ x = y := by
  rw [step, step, mul_prime_inj, UInt32.xor_left_inj]

/-- Different bytes make different states of one. -/
theorem step_right_inj {a b : UInt8} : step state a = step state b ↔ a = b := by
  rw [step, step, mul_prime_inj, UInt32.xor_right_inj, UInt8.toUInt32_inj]

/-- Different pairs of bytes make different states of one. -/
theorem step_step_inj {a b a' b' : UInt8} :
    step (step state a) b = step (step state a') b' ↔ a = a' ∧ b = b' := by
  constructor
  · intro h
    have hmixed : step state a ^^^ b.toUInt32 = step state a' ^^^ b'.toUInt32 := mul_prime_inj.mp h
    -- the second bytes are not seen above the lowest eight bits, nor are the first ones before the
    -- multiplication
    have hproduct : (step state a).toNat / 256 = (step state a').toNat / 256 := by
      rw [← toNat_xor_byte_div _ b, hmixed, toNat_xor_byte_div]
    have hfactor : (state ^^^ a.toUInt32).toNat / 256 = (state ^^^ a'.toUInt32).toNat / 256 := by
      rw [toNat_xor_byte_div, toNat_xor_byte_div]
    have hfirst : a = a' := by
      have heq := eq_of_mul_prime_div hfactor hproduct
      rwa [UInt32.xor_right_inj, UInt8.toUInt32_inj] at heq
    subst hfirst
    exact ⟨rfl, step_right_inj.mp h⟩
  · rintro ⟨rfl, rfl⟩
    rfl

/-- The same bytes keep different states apart. -/
theorem foldl_step_left_inj (bytes : List UInt8) :
    bytes.foldl step x = bytes.foldl step y ↔ x = y := by
  induction bytes generalizing x y with
  | nil => exact Iff.rfl
  | cons byte bytes ih => rw [List.foldl_cons, List.foldl_cons, ih, step_left_inj]

/-- One or two other bytes make another state. -/
theorem foldl_step_ne {u v : List UInt8} (hlength : u.length = v.length)
    (hsmall : u.length = 1 ∨ u.length = 2) (hne : u ≠ v) :
    u.foldl step state ≠ v.foldl step state := by
  match u, v with
  | [a], [b] =>
    intro h
    exact hne (by rw [step_right_inj.mp h])
  | [a, b], [a', b'] =>
    intro h
    obtain ⟨rfl, rfl⟩ := step_step_inj.mp h
    exact hne rfl

/-! ### Hashes -/

/-- What follows two byte strings neither parts their hashes nor joins them. -/
theorem ofBytes_append_right_inj {a b : List UInt8} (after : List UInt8) :
    ofBytes (a ++ after) = ofBytes (b ++ after) ↔ ofBytes a = ofBytes b := by
  rw [ofBytes_append, ofBytes_append, foldl_step_left_inj]

/-- A small edit changes the hash. -/
theorem ofBytes_ne_of_isSmallEdit {a b : List UInt8} (h : IsSmallEdit a b) :
    ofBytes a ≠ ofBytes b := by
  obtain ⟨before, u, v, after, rfl, rfl, hlength, hsmall, hne⟩ := h
  rw [ne_eq, ofBytes_append_right_inj, ofBytes_append, ofBytes_append]
  exact foldl_step_ne hlength hsmall hne

/-- One other byte, or two others in a row, make another hash, whatever stands before and behind
them; the same end of two byte strings tells nothing about their hashes; and two schemas have
different hashes if a small edit makes one canonical text the other. -/
theorem ofBytes_tells_small_edits :
    (∀ before u v after : List UInt8, u.length = v.length → u.length = 1 ∨ u.length = 2 → u ≠ v →
      ofBytes (before ++ u ++ after) ≠ ofBytes (before ++ v ++ after)) ∧
    (∀ a b after : List UInt8,
      ofBytes (a ++ after) = ofBytes (b ++ after) ↔ ofBytes a = ofBytes b) ∧
    ∀ (source source' : String) (m m' : Message), Message.parse source = .ok m →
      Message.parse source' = .ok m' →
      IsSmallEdit (utf8 m.canonicalText) (utf8 m'.canonicalText) → m.hash ≠ m'.hash := by
  refine ⟨fun before u v after hlength hsmall hne ↦ ?_, fun a b after ↦ ?_, ?_⟩
  · exact ofBytes_ne_of_isSmallEdit ⟨before, u, v, after, rfl, rfl, hlength, hsmall, hne⟩
  · exact ofBytes_append_right_inj after
  · intro source source' m m' h h' hedit
    obtain ⟨_, _, _, hhash⟩ := Message.parseChars_eq_ok_iff.mp h
    obtain ⟨_, _, _, hhash'⟩ := Message.parseChars_eq_ok_iff.mp h'
    rw [hhash, hhash']
    exact ofBytes_ne_of_isSmallEdit hedit

/-- A field with another name of two letters makes another hash. -/
theorem hash_ne_of_renamed_field :
    ∃ m m', Message.parse "struct A\x7b bool up; \x7d;" = .ok m ∧
      Message.parse "struct A\x7b bool on; \x7d;" = .ok m' ∧
      IsSmallEdit (utf8 m.canonicalText) (utf8 m'.canonicalText) ∧ m.hash ≠ m'.hash := by
  let m : Message := .compose "A" none [⟨.bool, "up", none⟩]
  let m' : Message := .compose "A" none [⟨.bool, "on", none⟩]
  have h : Message.parse "struct A\x7b bool up; \x7d;" = .ok m := by decide +kernel
  have h' : Message.parse "struct A\x7b bool on; \x7d;" = .ok m' := by decide +kernel
  have hedit : IsSmallEdit (utf8 m.canonicalText) (utf8 m'.canonicalText) :=
    ⟨utf8 "structA\x7bbool", utf8 "up", utf8 "on", utf8 ";\x7d;", by decide +kernel,
      by decide +kernel, rfl, .inr rfl, by decide⟩
  exact ⟨m, m', h, h', hedit, ofBytes_tells_small_edits.2.2 _ _ m m' h h' hedit⟩

end Fingerprint

end WireSchema
