import WireSchema.Schema.Comment
import WireSchema.Schema.Package

/-!
# The canonical form of a schema

The schema hash is taken of a form of the text that keeps what affects the wire and leaves out
comments, package directives and spacing. Directives go before the spacing, since a directive is
only recognised with its separator in place.
-/

namespace WireSchema.Canonical

/-- The characters that lay out a schema: space, tab, carriage return and line feed. -/
def isSpacing (c : Char) : Bool := c == ' ' || c == '\t' || c == '\r' || c == '\n'

/-- The text without its spacing. -/
def eraseSpacing (s : List Char) : List Char := s.filter fun c ↦ !isSpacing c

/-- The characters of the canonical form of a schema. -/
def form (s : List Char) : List Char :=
  eraseSpacing (Package.eraseDirectives false (Comment.erase s))

/-- The canonical form has no spacing. -/
theorem isSpacing_of_mem_form {s : List Char} {c : Char} (h : c ∈ form s) :
    isSpacing c = false := by
  simpa using (List.mem_filter.mp h).2

end WireSchema.Canonical
