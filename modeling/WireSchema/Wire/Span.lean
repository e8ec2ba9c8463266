import WireSchema.Wire.Writer

/-!
# Spans

A span shows the first bytes of a storage. Before a message is encoded into it, its length is the
room the message may take, and afterwards the number of bytes it took. Only the bytes that are
shown can be changed.
-/

namespace WireSchema

/-- A storage of which the first `length` bytes are shown. -/
structure Span where
  storage : List UInt8
  length : Nat
  deriving DecidableEq, Repr

namespace Span

/-- The span that shows a whole storage. -/
def ofStorage (storage : List UInt8) : Span := ⟨storage, storage.length⟩

/-- The span that shows as many bytes as asked for, if there are that many. -/
def ofLength (storage : List UInt8) (length : Nat) : Span := ⟨storage, min length storage.length⟩

/-- The span with another length, or as long as the storage if that is shorter. -/
def setLength (s : Span) (length : Nat) : Span :=
  { s with length := min length s.storage.length }

/-- Whether no byte is shown. -/
def isEmpty (s : Span) : Bool := s.length == 0

/-- The bytes that are shown. -/
def bytes (s : Span) : List UInt8 := s.storage.take s.length

/-- The span with other bytes in the place of those that are shown. -/
def setBytes (s : Span) (bytes : List UInt8) : Span :=
  { s with storage := bytes ++ s.storage.drop s.length }

/-- The span with one of the shown bytes changed. -/
def set? (s : Span) (i : Nat) (byte : UInt8) : Option Span :=
  if i < s.length then some (s.setBytes (s.bytes.set i byte)) else none

/-- Writes to the shown bytes from their start. If that succeeds, the length becomes the number of
bytes written; if it fails, what was written stays and the length is kept. -/
def write (s : Span) (action : Writer → Except WireError Unit × Writer) :
    Except WireError Unit × Span :=
  match action (Writer.ofStorage s.bytes) with
  | (.error e, w) => (.error e, s.setBytes w.storage)
  | (.ok (), w) => (.ok (), (s.setBytes w.storage).setLength w.index)

/-- The length of a span of the wanted length never goes past the storage. -/
theorem length_ofLength_le (storage : List UInt8) (length : Nat) :
    (ofLength storage length).length ≤ storage.length :=
  Nat.min_le_right _ _

/-- As many bytes are shown as the length says, if the storage is that long. -/
theorem length_bytes {s : Span} (h : s.length ≤ s.storage.length) : s.bytes.length = s.length := by
  simp [bytes, h]

/-- As many bytes as are shown are shown in their place. -/
theorem bytes_setBytes {s : Span} {bytes : List UInt8} (h : bytes.length = s.length) :
    (s.setBytes bytes).bytes = bytes :=
  List.take_left' h

/-- Of bytes that are put in one place after the other the last ones stay. -/
theorem setBytes_setBytes {s : Span} {bytes : List UInt8} (h : bytes.length = s.length)
    (bytes' : List UInt8) : (s.setBytes bytes).setBytes bytes' = s.setBytes bytes' := by
  simp only [setBytes, List.drop_left' h]

/-- What is shown behind some bytes is, with what is not shown, the storage behind them. -/
theorem drop_bytes_append {s : Span} (hs : s.length ≤ s.storage.length) {n : Nat}
    (h : n ≤ s.length) : s.bytes.drop n ++ s.storage.drop s.length = s.storage.drop n := by
  rw [← List.drop_append_of_le_length (by rwa [length_bytes hs]), bytes, List.take_append_drop]

end Span

end WireSchema
