import LineTint.Text.CodeRange

/-!
# Blanks

The White_Space property of Unicode, and texts without the blanks at their
ends. Every trimming of the library (names, colors, the indentation before a
comment marker) is by this one set.
-/

namespace LineTint.Text
set_option autoImplicit false

/-- The White_Space characters. -/
def blankRanges : List (Nat × Nat) := [
  (0x9, 0xD), (0x20, 0x20), (0x85, 0x85), (0xA0, 0xA0), (0x1680, 0x1680),
  (0x2000, 0x200A), (0x2028, 0x2029), (0x202F, 0x202F), (0x205F, 0x205F), (0x3000, 0x3000)]

/-- A White_Space character. -/
def isBlank (c : Char) : Bool :=
  inRanges c.toNat blankRanges

/-- The text from its first character that is no blank. -/
def dropBlanks (cs : List Char) : List Char :=
  cs.dropWhile isBlank

/-- The text without the blanks at both its ends. -/
def trim (cs : List Char) : List Char :=
  (dropBlanks (dropBlanks cs).reverse).reverse

end LineTint.Text
