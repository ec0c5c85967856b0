import LineTint.Pattern.CharClass
import LineTint.Text.Bytes

/-!
# Patterns

A pattern describes texts, and prefers some of the texts it describes to
others: of two alternatives the first, of more and fewer rounds of a repetition
what its greed says. A match starts at a place inside a line and knows the
character before that place.

Matching changes the pattern along the text. `Pattern.moves` lists, best
first, how a pattern can go on at a place: it ends there, or it reads the next
character and leaves a pattern for what follows. `Pattern.extent` follows all
patterns in play at once, best first, each kept once, and
`Pattern.matchLength?` starts it with a single one. `Pattern.find?` is the
leftmost match.
-/

namespace LineTint
set_option autoImplicit false

/-- A condition on which of the two neighbours of a place are word characters. -/
inductive WordEdge where
  | boundary
  | notBoundary
  | wordStart
  | wordEnd
  /-- No word character before the place. -/
  | afterNonWord
  /-- No word character after the place. -/
  | beforeNonWord
  deriving DecidableEq, Repr

/-- The condition holds of a place, given whether the character before it and
the one after it are word characters. -/
def WordEdge.holds (before after : Bool) : WordEdge → Bool
  | .boundary => before != after
  | .notBoundary => before == after
  | .wordStart => !before && after
  | .wordEnd => before && !after
  | .afterNonWord => !before
  | .beforeNonWord => !after

/-- A condition on the two neighbours of a place. -/
inductive Anchor where
  | textStart
  | textEnd
  | lineStart
  | lineEnd
  /-- The start of a line, where a carriage return ends a line too, or the two
  together do. -/
  | lineStartCrlf
  /-- The end of a line, where a carriage return ends a line too, or the two
  together do. -/
  | lineEndCrlf
  /-- An edge of words as Unicode has them. -/
  | word (e : WordEdge)
  /-- An edge of words of ASCII characters. -/
  | asciiWord (e : WordEdge)
  deriving DecidableEq, Repr

/-- A word boundary. -/
abbrev Anchor.boundary : Anchor := .word .boundary

/-- The condition holds between the characters `before` and `after`, where
`none` is an end of the text. -/
def Anchor.holds (before after : Option Char) : Anchor → Bool
  | .textStart => before.isNone
  | .textEnd => after.isNone
  | .lineStart => before.all (· == '\n')
  | .lineEnd => after.all (· == '\n')
  | .lineStartCrlf =>
    before.all fun c => c == '\n' || (c == '\r' && after.all (· != '\n'))
  | .lineEndCrlf =>
    after.all fun c => c == '\r' || (c == '\n' && before.all (· != '\r'))
  | .word e => e.holds (before.any Text.isWord) (after.any Text.isWord)
  | .asciiWord e => e.holds (before.any CharClass.asciiWord.has) (after.any CharClass.asciiWord.has)

/-- The condition where Unicode is turned off. -/
def Anchor.ascii : Anchor → Anchor
  | .word e => .asciiWord e
  | a => a

theorem Anchor.holds_boundary (before after : Option Char) :
    Anchor.boundary.holds before after = Text.isBoundary before after := rfl

/-- A pattern for texts. -/
inductive Pattern where
  /-- The empty text. -/
  | empty
  /-- One character of the class. -/
  | char (cls : CharClass)
  /-- The empty text, where the condition holds. -/
  | anchor (a : Anchor)
  /-- A text of the first pattern and then one of the second. -/
  | seq (p q : Pattern)
  /-- A text of either pattern, better of the first. -/
  | alt (p q : Pattern)
  /-- One round of a pattern and then `more` of it. -/
  | plus (greedy : Bool) (p : Pattern)
  /-- Any number of rounds of a pattern, none of them empty: better many if
  greedy, better few if not. -/
  | more (greedy : Bool) (p : Pattern)
  deriving DecidableEq, Repr

namespace Pattern

/-- The pattern of no text. -/
def never : Pattern := .char .none

/-- The pattern `p` and then `q`, without a part that is empty. -/
def andThen : Pattern → Pattern → Pattern
  | .empty, q => q
  | p, .empty => p
  | p, q => .seq p q

/-- One pattern after the other. -/
def sequence (ps : List Pattern) : Pattern :=
  ps.foldr andThen .empty

/-- The first of several patterns that leads to a match. -/
def anyOf (ps : List Pattern) : Pattern :=
  ps.foldr .alt never

/-- A text as a pattern of itself. -/
def literal (cs : List Char) : Pattern :=
  cs.foldr (fun c rest => .seq (.char (CharClass.single c)) rest) .empty

/-- The pattern or the empty text. -/
def optional (greedy : Bool) (p : Pattern) : Pattern :=
  if greedy then .alt p .empty else .alt .empty p

/-- Any number of rounds of a pattern. A first round may be empty; a single
character never is. -/
def star (greedy : Bool) : Pattern → Pattern
  | .char cls => .more greedy (.char cls)
  | p => optional greedy (.plus greedy p)

/-- How a pattern can go on at a place. -/
inductive Move where
  /-- It ends at the place. -/
  | stop
  /-- It reads the next character and goes on as `rest`. -/
  | go (rest : Pattern)
  deriving DecidableEq, Repr

/-- The move, with `q` to follow after the character it reads. -/
def Move.andThen (q : Pattern) : Move → Move
  | .stop => .stop
  | .go rest => .go (rest.andThen q)

/-- What is left to match after the move, if it reads a character. -/
def Move.rest? : Move → Option Pattern
  | .stop => none
  | .go rest => some rest

/-- The moves of a pattern at a place between `before` and `after`, best
first. A first round of a repetition may end where it began; a later round
that does so is no round. -/
def moves (before after : Option Char) : Pattern → List Move
  | .empty => [.stop]
  | .char cls => if after.any cls.has then [.go .empty] else []
  | .anchor a => if a.holds before after then [.stop] else []
  | .seq p q =>
    (moves before after p).flatMap fun
      | .stop => moves before after q
      | .go rest => [.go (rest.andThen q)]
  | .alt p q => moves before after p ++ moves before after q
  | .plus greedy p => (moves before after p).map (Move.andThen (.more greedy p))
  | .more greedy p =>
    let rounds := (moves before after p).filterMap fun m =>
      m.rest?.map fun rest => .go (rest.andThen (.more greedy p))
    if greedy then rounds ++ [.stop] else .stop :: rounds

/-- The patterns left after each of the moves that are better than stopping. -/
def better (ms : List Move) : List Pattern :=
  (ms.takeWhile (· ≠ .stop)).filterMap Move.rest?

/-- The bytes that the best match of the first pattern, or else of the second,
and so on, takes from the front of a text. -/
def extent (ps : List Pattern) (before : Option Char) : List Char → Option Nat
  | [] => if .stop ∈ ps.flatMap (moves before none) then some 0 else none
  | c :: text =>
    let ms := ps.flatMap (moves before (some c))
    let longer :=
      match (better ms).eraseDups with
      | [] => none
      | p :: ps => (extent (p :: ps) (some c) text).map (c.utf8Size + ·)
    longer <|> if .stop ∈ ms then some 0 else none

/-- The length in bytes of the match at the front of `text`, which follows the
character `before`. -/
def matchLength? (p : Pattern) (before : Option Char) (text : List Char) : Option Nat :=
  extent [p] before text

/-- The start and end of the leftmost match in `text`, as offsets in a line in
which `text` stands at `offset` after the character `before`. -/
def find? (p : Pattern) (before : Option Char) (offset : Nat) : List Char → Option (Nat × Nat)
  | [] => (p.matchLength? before []).map fun n => (offset, offset + n)
  | c :: text =>
    match p.matchLength? before (c :: text) with
    | some n => some (offset, offset + n)
    | none => p.find? (some c) (offset + c.utf8Size) text

end Pattern
end LineTint
