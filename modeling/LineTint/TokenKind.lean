import LineTint.Style
import LineTint.Text.LetterCase

/-!
# Kinds of tokens

The categories that highlighting gives to pieces of text. Plain text has none.
A kind has a name, which is read without regard to ASCII case and to blanks
around it, and a style of its own.
-/

namespace LineTint
set_option autoImplicit false

/-- A category of highlighted text. -/
inductive TokenKind where
  /-- A line that is a comment as a whole. -/
  | comment
  | string
  | number
  /-- A reserved word. -/
  | keyword
  /-- The name of a type that belongs to the language. -/
  | type
  /-- The name of something from the standard library. -/
  | builtin
  deriving DecidableEq, Repr

namespace TokenKind

/-- Every kind. -/
def all : List TokenKind :=
  [.comment, .string, .number, .keyword, .type, .builtin]

/-- The name of a kind. -/
def name : TokenKind → String
  | .comment => "comment"
  | .string => "string"
  | .number => "number"
  | .keyword => "keyword"
  | .type => "type"
  | .builtin => "builtin"

/-- The kind that a text names. -/
def ofName? (text : String) : Option TokenKind :=
  let key := Text.lowerAscii (Text.trim text.toList)
  all.find? fun kind => kind.name.toList = key

/-- The color of a kind, packed. -/
def packedColor : TokenKind → UInt32
  | .comment => 0x6A9955
  | .string => 0xCE9178
  | .number => 0xB5CEA8
  | .keyword => 0x569CD6
  | .type => 0x4EC9B0
  | .builtin => 0xDCDCAA

/-- The style a kind has unless a theme says otherwise. -/
def defaultStyle (kind : TokenKind) : Style :=
  .ofForeground (some (.ofPacked kind.packedColor))

end TokenKind
end LineTint
