import LineTint.Lexicon.Basic
import LineTint.Pattern.Delimited
import LineTint.Pattern.Reader
import LineTint.Pattern.WholeWord
import LineTint.TokenKind

/-!
# Rules

A rule is a pattern and the kind of token that its matches are. The rules of a
lexicon stand in order of priority: strings, numbers, keywords, types and
library names. A rule without words or delimiters, or whose written pattern
does not compile, is missing.

Only the numbers of a lexicon are given as a written pattern. What makes a
pattern of it is the engine behind the rules, so `Lexicon.rulesWith` takes that
as a parameter; `Lexicon.rules` takes `Pattern.read?` for it, which reads a part
of the syntax.
-/

namespace LineTint
set_option autoImplicit false

/-- A kind of token and the pattern of its texts. -/
structure Rule where
  kind : TokenKind
  pattern : Pattern
  deriving DecidableEq, Repr

/-- The rules of a lexicon, the one with the highest priority first, where
`compile` makes a pattern of the written one. -/
def Lexicon.rulesWith (compile : String → Option Pattern) (x : Lexicon) : List Rule :=
  [(Pattern.delimited? x.delimiters).map (Rule.mk .string),
    (compile x.numberPattern).map (Rule.mk .number),
    (Pattern.wholeWord? x.keywords).map (Rule.mk .keyword),
    (Pattern.wholeWord? x.types).map (Rule.mk .type),
    (Pattern.wholeWord? x.builtins).map (Rule.mk .builtin)].filterMap id

/-- The rules of a lexicon whose numbers are written in the syntax that
`Pattern.read?` reads. -/
def Lexicon.rules (x : Lexicon) : List Rule :=
  x.rulesWith Pattern.read?

end LineTint
