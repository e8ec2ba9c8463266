import WireSchema.Catalog
import WireSchema.Proofs.Wire.RoundTrip
import WireSchema.Wire.Frame

/-!
# Frames and the records in them

A frame that has the bytes of a hash starts with the bytes of one word and of no other. So the word
decides first, and only behind the right one are the other bytes decoded. The main statement says
which frames are opened, and which error each of the others gives.
-/

namespace WireSchema.Frame

open BigEndian

/-! ### The word at the start -/

/-- A word is read from its four bytes. -/
theorem decode_encode_word (word : UInt32) : decode (encode hashSize word.toNat) = word.toNat :=
  decode_encode word.toNat_lt_size

/-- A frame that is not too short starts with the bytes of a word. -/
theorem exists_word_append {frame : List UInt8} (h : hashSize ≤ frame.length) :
    ∃ (word : UInt32) (rest : List UInt8), frame = encode hashSize word.toNat ++ rest := by
  have hlength : (frame.take hashSize).length = hashSize := List.length_take_of_le h
  have hlt : decode (frame.take hashSize) < UInt32.size := decode_lt hlength
  refine ⟨UInt32.ofNat (decode (frame.take hashSize)), frame.drop hashSize, ?_⟩
  rw [UInt32.toNat_ofNat_of_lt' hlt, encode_decode hlength, List.take_append_drop]

/-- The first four bytes mean the word that they are the bytes of. -/
theorem decode_take_word_append (word : UInt32) (rest : List UInt8) :
    decode ((encode hashSize word.toNat ++ rest).take hashSize) = word.toNat := by
  rw [List.take_left' (length_encode _ _), decode_encode_word]

/-- With the bytes of a word a frame is not too short. -/
theorem hashSize_le_length (word : UInt32) (rest : List UInt8) :
    hashSize ≤ (encode hashSize word.toNat ++ rest).length := by
  rw [List.length_append, length_encode]
  exact Nat.le_add_right _ _

/-- No frame starts with the bytes of two words. -/
theorem word_append_inj {word word' : UInt32} {rest rest' : List UInt8}
    (h : encode hashSize word.toNat ++ rest = encode hashSize word'.toNat ++ rest') :
    word = word' ∧ rest = rest' := by
  have hword := decode_take_word_append word rest
  rw [h, decode_take_word_append] at hword
  have hrest := congrArg (List.drop hashSize) h
  rw [List.drop_left' (length_encode _ _), List.drop_left' (length_encode _ _)] at hrest
  exact ⟨(UInt32.toNat_inj.mp hword).symm, hrest⟩

/-! ### Packing and unpacking -/

/-- The frame of a record has the hash of the message, and then the bytes of the record. -/
theorem pack_eq (m : Message) (r : Record m.fields) :
    pack m r = .ok (encode hashSize m.hash.toNat ++ r.wire) := by
  simp only [pack, r.toBytes_eq]

/-- A frame of fewer than four bytes is truncated. -/
theorem unpack_of_short (m : Message) {frame : List UInt8} (h : frame.length < hashSize) :
    unpack m frame = .error .truncated := if_pos h

/-- A frame with another word than the hash is refused, whatever follows it. -/
theorem unpack_of_ne {m : Message} {word : UInt32} (h : word ≠ m.hash) (rest : List UInt8) :
    unpack m (encode hashSize word.toNat ++ rest) = .error (.hashMismatch m.hash word) := by
  rw [unpack, if_neg (Nat.not_lt.mpr (hashSize_le_length word rest))]
  simp only [decode_take_word_append, UInt32.ofNat_toNat, if_pos h]

/-- Behind the hash the record is decoded. -/
theorem unpack_hash_append (m : Message) (rest : List UInt8) :
    unpack m (encode hashSize m.hash.toNat ++ rest) =
      match Record.ofBytes m.fields rest with
      | .error e => .error (.payload e)
      | .ok r => .ok r := by
  rw [unpack, if_neg (Nat.not_lt.mpr (hashSize_le_length m.hash rest))]
  cases hr : Record.ofBytes m.fields rest <;>
    simp only [decode_take_word_append, UInt32.ofNat_toNat, ne_eq, not_true_eq_false, if_false,
      List.drop_left' (length_encode _ _), hr]

/-- A frame is too short, or has another word, or has the hash. -/
theorem cases_of_frame (m : Message) (frame : List UInt8) :
    frame.length < hashSize ∨
      (∃ word rest, word ≠ m.hash ∧ frame = encode hashSize word.toNat ++ rest) ∨
      ∃ rest, frame = encode hashSize m.hash.toNat ++ rest := by
  by_cases hshort : frame.length < hashSize
  · exact .inl hshort
  · obtain ⟨word, rest, rfl⟩ := exists_word_append (Nat.not_lt.mp hshort)
    by_cases hword : word = m.hash
    · exact .inr (.inr ⟨rest, by rw [hword]⟩)
    · exact .inr (.inl ⟨word, rest, hword, rfl⟩)

variable {m : Message} {frame : List UInt8}

/-- A frame is opened to a record exactly if it is the frame of that record. -/
theorem unpack_eq_ok_iff {r : Record m.fields} : unpack m frame = .ok r ↔ pack m r = .ok frame := by
  rw [pack_eq, Except.ok.injEq]
  obtain hshort | ⟨word, rest, hword, rfl⟩ | ⟨rest, rfl⟩ := cases_of_frame m frame
  · rw [unpack_of_short m hshort]
    refine iff_of_false nofun ?_
    rintro rfl
    exact Nat.not_le.mpr hshort (hashSize_le_length m.hash r.wire)
  · rw [unpack_of_ne hword]
    exact iff_of_false nofun fun h ↦ hword (word_append_inj h).1.symm
  · have hwire : Record.ofBytes m.fields rest = .ok r ↔ r.wire = rest := Record.ofBytes_eq_ok_iff
    rw [unpack_hash_append, List.append_cancel_left_eq, ← hwire]
    cases Record.ofBytes m.fields rest with
    | error e => exact iff_of_false nofun nofun
    | ok r' => simp only [Except.ok.injEq]

/-- A frame is truncated exactly if it has fewer bytes than a hash. -/
theorem unpack_eq_truncated_iff :
    unpack m frame = .error .truncated ↔ frame.length < hashSize := by
  obtain hshort | ⟨word, rest, hword, rfl⟩ | ⟨rest, rfl⟩ := cases_of_frame m frame
  · rw [unpack_of_short m hshort]
    exact iff_of_true rfl hshort
  · rw [unpack_of_ne hword]
    exact iff_of_false nofun (Nat.not_lt.mpr (hashSize_le_length word rest))
  · rw [unpack_hash_append]
    refine iff_of_false ?_ (Nat.not_lt.mpr (hashSize_le_length m.hash rest))
    cases Record.ofBytes m.fields rest <;> nofun

/-- A frame is refused for its hash exactly if its first bytes mean another word. -/
theorem unpack_eq_hashMismatch_iff {expected found : UInt32} :
    unpack m frame = .error (.hashMismatch expected found) ↔
      hashSize ≤ frame.length ∧ found.toNat = decode (frame.take hashSize) ∧
        expected = m.hash ∧ found ≠ m.hash := by
  obtain hshort | ⟨word, rest, hword, rfl⟩ | ⟨rest, rfl⟩ := cases_of_frame m frame
  · rw [unpack_of_short m hshort]
    exact iff_of_false nofun fun h ↦ Nat.not_le.mpr hshort h.1
  · rw [unpack_of_ne hword, decode_take_word_append, UInt32.toNat_inj]
    constructor
    · intro h
      cases h
      exact ⟨hashSize_le_length _ _, rfl, rfl, hword⟩
    · rintro ⟨_, rfl, rfl, _⟩
      rfl
  · rw [unpack_hash_append, decode_take_word_append, UInt32.toNat_inj]
    refine iff_of_false ?_ fun h ↦ h.2.2.2 h.2.1
    cases Record.ofBytes m.fields rest <;> nofun

/-- A frame is refused for its record exactly if the hash is there and decoding the other bytes
gives the error. -/
theorem unpack_eq_payload_iff {e : WireError} :
    unpack m frame = .error (.payload e) ↔
      hashSize ≤ frame.length ∧ decode (frame.take hashSize) = m.hash.toNat ∧
        Record.ofBytes m.fields (frame.drop hashSize) = .error e := by
  obtain hshort | ⟨word, rest, hword, rfl⟩ | ⟨rest, rfl⟩ := cases_of_frame m frame
  · rw [unpack_of_short m hshort]
    exact iff_of_false nofun fun h ↦ Nat.not_le.mpr hshort h.1
  · rw [unpack_of_ne hword, decode_take_word_append, UInt32.toNat_inj]
    exact iff_of_false nofun fun h ↦ hword h.2.1
  · have hlong := hashSize_le_length m.hash rest
    rw [unpack_hash_append, decode_take_word_append, List.drop_left' (length_encode _ _)]
    cases Record.ofBytes m.fields rest with
    | error e' => simp only [Except.error.injEq, FrameError.payload.injEq, hlong, true_and]
    | ok r => simp only [reduceCtorEq, and_false]

/-- A message opens exactly the frames of its records. Any other frame is truncated, or has the hash
of another message, which no later byte can make good, or has the error of the bytes behind the
hash; in particular no frame of a message with another hash is opened. -/
theorem unpack_exactly_packed (m : Message) :
    (∀ r : Record m.fields, ∃ frame, pack m r = .ok frame) ∧
    (∀ frame (r : Record m.fields), unpack m frame = .ok r ↔ pack m r = .ok frame) ∧
    (∀ frame, unpack m frame = .error .truncated ↔ frame.length < 4) ∧
    (∀ frame expected found, unpack m frame = .error (.hashMismatch expected found) ↔
      4 ≤ frame.length ∧ found.toNat = decode (frame.take 4) ∧ expected = m.hash ∧
        found ≠ m.hash) ∧
    (∀ frame e, unpack m frame = .error (.payload e) ↔
      4 ≤ frame.length ∧ decode (frame.take 4) = m.hash.toNat ∧
        Record.ofBytes m.fields (frame.drop 4) = .error e) ∧
    ∀ (m' : Message) (r : Record m'.fields) frame, m'.hash ≠ m.hash → pack m' r = .ok frame →
      unpack m frame = .error (.hashMismatch m.hash m'.hash) := by
  refine ⟨fun r ↦ ⟨_, pack_eq m r⟩, fun _ _ ↦ unpack_eq_ok_iff, fun _ ↦ unpack_eq_truncated_iff,
    fun _ _ _ ↦ unpack_eq_hashMismatch_iff, fun _ _ ↦ unpack_eq_payload_iff,
    fun m' r frame hne h ↦ ?_⟩
  rw [pack_eq] at h
  cases h
  exact unpack_of_ne hne _

/-- The frame of a ping is no command to a lamp. -/
theorem unpack_ping_as_ledCommand :
    ∃ r : Record Catalog.ping.fields,
      Catalog.ping.hash ≠ Catalog.ledCommand.hash ∧
        pack Catalog.ping r = .ok [0xb2, 0xf2, 0x22, 0xd3, 0, 0, 0, 7] ∧
        unpack Catalog.ledCommand [0xb2, 0xf2, 0x22, 0xd3, 0, 0, 0, 7] =
          .error (.hashMismatch Catalog.ledCommand.hash Catalog.ping.hash) := by
  let r : Record Catalog.ping.fields := .cons (7 : UInt32) .nil
  have hne : Catalog.ping.hash ≠ Catalog.ledCommand.hash := by decide +kernel
  have hpack : pack Catalog.ping r = .ok [0xb2, 0xf2, 0x22, 0xd3, 0, 0, 0, 7] := by
    have hhash : Catalog.ping.hash = 0xb2f222d3 := by decide +kernel
    rw [pack_eq, hhash]
    rfl
  exact ⟨r, hne, hpack, (unpack_exactly_packed Catalog.ledCommand).2.2.2.2.2 _ r _ hne hpack⟩

end WireSchema.Frame
