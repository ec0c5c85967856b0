import LineTint.Fault
import LineTint.Text.Blank
import LineTint.Text.Digit

/-!
# Colors

A color is a red, a green and a blue part of eight bits each. It is written
`#RRGGBB`, where blanks around it and any number of leading `#` are optional,
or packed into a word.
-/

namespace LineTint
set_option autoImplicit false

/-- A color of 24 bits. -/
structure Color where
  red : UInt8
  green : UInt8
  blue : UInt8
  deriving DecidableEq, Repr

namespace Color

/-- The color in the three low bytes of a word; the high byte is ignored. -/
def ofPacked (n : UInt32) : Color :=
  ⟨(n >>> 16).toUInt8, (n >>> 8).toUInt8, n.toUInt8⟩

/-- The digits of a written color: without the blanks at its ends and the `#`
it begins with. -/
def digits (text : List Char) : List Char :=
  (Text.trim text).dropWhile (· = '#')

/-- Reads a written color: exactly six hexadecimal digits. -/
def parse (text : String) : Except Fault Color :=
  let cs := digits text.toList
  match if cs.length = 6 then Text.hexNumber? cs else none with
  | some n => .ok (ofPacked n.toUInt32)
  | none => .error (.invalidColor text)

end Color
end LineTint
