import LineTint.Color

/-!
# Styles

How a piece of text looks: an optional foreground color, bold, italic. The
plain style has none of them.
-/

namespace LineTint
set_option autoImplicit false

/-- The look of a piece of text. Without a foreground it has the color that
the surrounding text has. -/
structure Style where
  foreground : Option Color
  bold : Bool
  italic : Bool
  deriving DecidableEq, Repr

namespace Style

/-- The style of plain text. -/
def plain : Style := ⟨none, false, false⟩

/-- A style with a foreground and nothing else. -/
def ofForeground (foreground : Option Color) : Style :=
  { plain with foreground }

/-- The style changes nothing. -/
def isPlain (s : Style) : Bool :=
  s == plain

end Style
end LineTint
