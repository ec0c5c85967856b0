import LineTint.Style

/-!
# Control sequences

The sequences that change how a terminal shows the text after them: a
foreground of 24 bits, bold, dim, italic, and the end of all of these. Each
function lists texts to write one after the other.
-/

namespace LineTint.Terminal
set_option autoImplicit false

/-- The sequence with the given parameters. -/
def sequence (parameters : String) : String :=
  "\x1b[" ++ parameters ++ "m"

/-- Sets the foreground. -/
def foreground (c : Color) : String :=
  sequence ("38;2;" ++ toString c.red.toNat ++ ";" ++ toString c.green.toNat ++ ";" ++
    toString c.blue.toNat)

/-- Sets what a style sets: foreground, bold and italic, in this order. -/
def apply (s : Style) : List String :=
  (s.foreground.map foreground).toList ++
    (if s.bold then [sequence "1"] else []) ++
    (if s.italic then [sequence "3"] else [])

/-- Makes text dim. -/
def dim : List String := [sequence "2"]

/-- Ends colors and then all other attributes. -/
def reset : List String := [sequence "0", sequence "0"]

end LineTint.Terminal
