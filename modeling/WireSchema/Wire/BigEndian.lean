/-!
# Big-endian numbers

A number as a fixed number of bytes, most significant first. `capacity n` counts the numbers that
`n` bytes can tell apart. The main statements say that the two directions are inverse to each other
on the numbers below that.
-/

namespace WireSchema.BigEndian

/-- The number of different strings of `n` bytes. -/
def capacity : (n : Nat) → Nat
  | 0 => 1
  | n + 1 => 256 * capacity n

/-- The lowest `n` bytes of a number, most significant first. -/
def encode : (n : Nat) → Nat → List UInt8
  | 0, _ => []
  | n + 1, x => encode n (x / 256) ++ [UInt8.ofNat (x % 256)]

/-- The number that the bytes mean. -/
def decode (bytes : List UInt8) : Nat := bytes.foldl (fun x b ↦ 256 * x + b.toNat) 0

/-- A last byte adds the lowest digit. -/
theorem decode_append_singleton (bytes : List UInt8) (b : UInt8) :
    decode (bytes ++ [b]) = 256 * decode bytes + b.toNat := by
  simp [decode]

/-- A number has as many bytes as asked for. -/
theorem length_encode (n x : Nat) : (encode n x).length = n := by
  induction n generalizing x with
  | zero => rfl
  | succ n ih => rw [encode, List.length_append, ih, List.length_singleton]

/-- A number that fits in the bytes is read back from them. -/
theorem decode_encode {n x : Nat} (h : x < capacity n) : decode (encode n x) = x := by
  induction n generalizing x with
  | zero =>
    rw [capacity] at h
    rw [Nat.lt_one_iff.mp h]
    rfl
  | succ n ih =>
    rw [capacity] at h
    have hb : (UInt8.ofNat (x % 256)).toNat = x % 256 := by
      rw [UInt8.toNat_ofNat']
      exact Nat.mod_mod _ _
    rw [encode, decode_append_singleton, ih (by omega), hb]
    omega

private theorem exists_append_singleton {bytes : List UInt8} {n : Nat}
    (h : bytes.length = n + 1) : ∃ init b, bytes = init ++ [b] ∧ init.length = n := by
  have hne : bytes ≠ [] := fun he ↦ by simp [he] at h
  exact ⟨bytes.dropLast, bytes.getLast hne, (List.dropLast_concat_getLast hne).symm, by simp [h]⟩

/-- Bytes mean a number that fits in them. -/
theorem decode_lt {n : Nat} {bytes : List UInt8} (h : bytes.length = n) :
    decode bytes < capacity n := by
  induction n generalizing bytes with
  | zero =>
    rw [List.eq_nil_of_length_eq_zero h]
    decide
  | succ n ih =>
    obtain ⟨init, b, rfl, hi⟩ := exists_append_singleton h
    have hl := ih hi
    have hb := UInt8.toNat_lt_size b
    rw [decode_append_singleton, capacity]
    simp only [UInt8.size] at hb
    omega

/-- Bytes are the bytes of the number that they mean. -/
theorem encode_decode {n : Nat} {bytes : List UInt8} (h : bytes.length = n) :
    encode n (decode bytes) = bytes := by
  induction n generalizing bytes with
  | zero =>
    rw [List.eq_nil_of_length_eq_zero h]
    rfl
  | succ n ih =>
    obtain ⟨init, b, rfl, hi⟩ := exists_append_singleton h
    have hb := UInt8.toNat_lt_size b
    simp only [UInt8.size] at hb
    have hq : (256 * decode init + b.toNat) / 256 = decode init := by omega
    have hr : (256 * decode init + b.toNat) % 256 = b.toNat := by omega
    rw [decode_append_singleton, encode, hq, hr, ih hi, UInt8.ofNat_toNat]

end WireSchema.BigEndian
