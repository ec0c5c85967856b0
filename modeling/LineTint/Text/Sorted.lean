/-!
# Sorted sets

A set of words or of characters is the ascending list of its members, each
once. Words are ordered by their code points.
-/

namespace LineTint.Text
set_option autoImplicit false

/-- The different members of a list in ascending order. -/
def sortedSet {α : Type} [LE α] [DecidableLE α] [BEq α] (xs : List α) : List α :=
  (xs.mergeSort fun a b => decide (a ≤ b)).eraseDups

end LineTint.Text
