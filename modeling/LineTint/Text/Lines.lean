/-!
# Lines

A text is its lines with one newline between each two of them, so a text
always has one line more than it has newlines.
-/

namespace LineTint.Text
set_option autoImplicit false

/-- The lines of a text, without their newlines. -/
def lines (s : String) : List String :=
  (s.toList.splitOn '\n').map String.ofList

end LineTint.Text
