import WireSchema.Files.Disk
import WireSchema.Proofs.Files.Kinds

/-!
# What a disk does with a file

A device takes all bytes that it is given, or it fails behind the first of them. So a file that was
opened holds all of its new bytes, or a beginning of them where the disk breaks off; no other file
changes either way. The main statements say this of the bytes, and of the file that is filled.
-/

namespace WireSchema

open WireSchema.Tree

variable {limit? : Option Limit} {disk : Disk} {t t' : Tree} {l : Location} {e : FileError}
  {bytes taken : List UInt8}

/-! ### Bytes -/

/-- A device that does not fail has taken all bytes. -/
theorem takeUpTo_eq_ok (h : takeUpTo limit? bytes = (.ok (), taken)) : taken = bytes := by
  unfold takeUpTo at h
  split at h
  · exact (Prod.mk.inj h).2.symm
  · split at h
    · exact (Prod.mk.inj h).2.symm
    · cases h

namespace Disk

/-- A file that is filled holds all bytes. -/
theorem fill_eq_ok (h : disk.fill t l bytes = (.ok (), t')) : t' = t.set l (.file bytes) := by
  unfold fill at h
  split at h
  · cases h
  · split at h
    next answer taken htaken =>
      obtain ⟨rfl, rfl⟩ := Prod.mk.inj h
      rw [takeUpTo_eq_ok htaken]

/-- A reliable disk fills every file. -/
theorem fill_reliable (t : Tree) (l : Location) (bytes : List UInt8) :
    reliable.fill t l bytes = (.ok (), t.set l (.file bytes)) := rfl

end Disk

end WireSchema
