import LineTint.TokenKind

/-!
# Themes

A theme gives every kind of token a style. Two themes are equal when they give
all kinds the same styles.
-/

namespace LineTint
set_option autoImplicit false

/-- A style for every kind of token. -/
structure Theme where
  comment : Style
  string : Style
  number : Style
  keyword : Style
  type : Style
  builtin : Style
  deriving DecidableEq, Repr

namespace Theme

/-- The theme in which every kind has its own style. -/
def standard : Theme where
  comment := TokenKind.comment.defaultStyle
  string := TokenKind.string.defaultStyle
  number := TokenKind.number.defaultStyle
  keyword := TokenKind.keyword.defaultStyle
  type := TokenKind.type.defaultStyle
  builtin := TokenKind.builtin.defaultStyle

/-- The style of a kind. -/
def style (t : Theme) : TokenKind → Style
  | .comment => t.comment
  | .string => t.string
  | .number => t.number
  | .keyword => t.keyword
  | .type => t.type
  | .builtin => t.builtin

/-- The theme with another style for a kind. -/
def set (t : Theme) (kind : TokenKind) (s : Style) : Theme :=
  match kind with
  | .comment => { t with comment := s }
  | .string => { t with string := s }
  | .number => { t with number := s }
  | .keyword => { t with keyword := s }
  | .type => { t with type := s }
  | .builtin => { t with builtin := s }

theorem style_set (t : Theme) (kind other : TokenKind) (s : Style) :
    (t.set kind s).style other = if other = kind then s else t.style other := by
  cases kind <;> cases other <;> rfl

theorem style_standard (kind : TokenKind) : standard.style kind = kind.defaultStyle := by
  cases kind <;> rfl

end Theme
end LineTint
