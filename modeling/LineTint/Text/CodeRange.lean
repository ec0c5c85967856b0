/-!
# Ranges of code points

A property of characters is a table of closed ranges of code points in
ascending order. `inRanges` looks a character up in one; the look-up stops at
the first range that lies above it.
-/

namespace LineTint.Text
set_option autoImplicit false

/-- The code point `n` lies in one of the ascending ranges. -/
def inRanges (n : Nat) : List (Nat × Nat) → Bool
  | [] => false
  | r :: rest => if n < r.1 then false else decide (n ≤ r.2) || inRanges n rest

end LineTint.Text
