import LineTint.TokenKind

/-!
# Spans

A span is a piece of a line, by byte offsets, and the kind of token it is.
-/

namespace LineTint
set_option autoImplicit false

/-- The bytes of a line from `start` up to but not including `stop`, as a token. -/
structure Span where
  start : Nat
  stop : Nat
  kind : TokenKind
  deriving DecidableEq, Repr

end LineTint
