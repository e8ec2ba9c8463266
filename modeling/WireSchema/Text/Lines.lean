/-!
# Texts made of lines

A generated file is a list of lines. `joinLines` puts a line feed between two lines and none after
the last, so a file that ends its last line does so by an empty line at the end of the list.
-/

namespace WireSchema.Text

/-- The characters of the lines, with a line feed between two of them. -/
def joinChars : List (List Char) → List Char
  | [] => []
  | [line] => line
  | line :: rest => line ++ '\n' :: joinChars rest

/-- The text of the lines, with a line feed between two of them. -/
def joinLines (lines : List String) : String :=
  String.ofList (joinChars (lines.map String.toList))

/-- The characters of joined lines. -/
theorem toList_joinLines (lines : List String) :
    (joinLines lines).toList = joinChars (lines.map String.toList) :=
  String.toList_ofList

end WireSchema.Text
