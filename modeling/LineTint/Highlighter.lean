import LineTint.Lexicon.Vocabulary
import LineTint.Run
import LineTint.Scan
import LineTint.Text.Lines

/-!
# Highlighters

A highlighter is made from a lexicon and classifies every line on its own:
nothing is carried from one line to the next. A line that begins with the
comment mark, blanks aside, is a comment as a whole; any other line is scanned
with the rules.
-/

namespace LineTint
set_option autoImplicit false

/-- The comment mark and the rules of a language, ready for use. -/
structure Highlighter where
  lineComment : String
  rules : List Rule
  deriving DecidableEq, Repr

namespace Highlighter

/-- The highlighter of a lexicon, where `compile` makes a pattern of the written
one for its numbers. -/
def ofLexiconWith (compile : String → Option Pattern) (x : Lexicon) : Highlighter :=
  ⟨x.lineComment, x.rulesWith compile⟩

/-- The highlighter of a lexicon. -/
def ofLexicon (x : Lexicon) : Highlighter :=
  ofLexiconWith Pattern.read? x

/-- The highlighter of a language. -/
def ofLanguage (l : Language) : Highlighter :=
  ofLexicon l.lexicon

/-- The highlighter that leaves all text plain. -/
def plain : Highlighter := ⟨"", []⟩

/-- The highlighter of a language, or the one that leaves text plain. -/
def ofLanguage? (l : Option Language) : Highlighter :=
  (l.map ofLanguage).getD plain

/-- The names of the rules, by priority. -/
def ruleNames (h : Highlighter) : List String :=
  h.rules.map fun r => r.kind.name

/-- The line is a comment as a whole. -/
def isComment (h : Highlighter) (line : List Char) : Bool :=
  !h.lineComment.isEmpty && h.lineComment.toList.isPrefixOf (Text.dropBlanks line)

/-- The spans of the tokens of a line, from left to right. -/
def spans (h : Highlighter) (line : String) : List Span :=
  let cs := line.toList
  if cs.isEmpty then []
  else if h.isComment cs then [⟨0, Text.byteLength cs, .comment⟩]
  else Scan.spans h.rules cs

/-- The runs of a line. -/
def runs (h : Highlighter) (line : String) : List Run :=
  Run.ofSpans 0 line.toList (h.spans line)

/-- The runs of each line of a text. -/
def lines (h : Highlighter) (text : String) : List (List Run) :=
  (Text.lines text).map h.runs

/-- The runs of a text, the newlines between its lines included. -/
def text (h : Highlighter) (text : String) : List Run :=
  [Run.newline].intercalate (h.lines text)

end Highlighter
end LineTint
