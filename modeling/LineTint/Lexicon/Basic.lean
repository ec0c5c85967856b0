import LineTint.Text.Sorted

/-!
# Lexicons

What highlighting knows of a language: sets of words that are keywords, types
and library names, the marks of comments, the characters that delimit strings,
and the written pattern of its numbers.
-/

namespace LineTint
set_option autoImplicit false

/-- The lexical facts of a language. The sets are ascending, each member once. -/
structure Lexicon where
  keywords : List String
  types : List String
  builtins : List String
  /-- A line that begins with this mark is a comment; an empty mark begins none. -/
  lineComment : String
  /-- The marks around a block comment. Lines are highlighted one by one, so
  these are only told, not used. -/
  blockComment : String × String
  delimiters : List Char
  numberPattern : String
  deriving DecidableEq, Repr

namespace Lexicon

/-- The numbers of a language that says nothing else: ASCII digits with an
optional dot and fraction, as a whole word. -/
def defaultNumberPattern : String :=
  "\\b[0-9]+\\.?[0-9]*\\b"

/-- The lexicon of a language with the given words and the usual marks. -/
def ofWords (keywords types builtins : List String) : Lexicon where
  keywords := Text.sortedSet keywords
  types := Text.sortedSet types
  builtins := Text.sortedSet builtins
  lineComment := "//"
  blockComment := ("/*", "*/")
  delimiters := Text.sortedSet ['"', '\'']
  numberPattern := defaultNumberPattern

end Lexicon
end LineTint
