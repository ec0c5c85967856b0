import LineTint.Pattern.Basic

/-!
# Symbols of written patterns

A written pattern is a row of symbols: characters, classes, anchors,
quantifiers, group brackets and bars. This file reads the symbols that spell
themselves out in one go (escapes, bracketed classes, counted quantifiers and
the openings of groups); `Symbol.readAll` reads a whole pattern into its
symbols.

This is a part of the syntax that the `regex` crate compiles. The flag `x`, which
lets blanks and comments stand in a pattern, and classes by the name of a Unicode
property, such as `\p{Nd}`, are not read: a text with one of them has no
reading here, though it may well be a pattern.
-/

namespace LineTint.Pattern
set_option autoImplicit false

/-- What can be turned on and off inside a pattern. -/
inductive Flag where
  /-- Characters match whatever their case is. -/
  | ignoreCase
  /-- A caret and a dollar sign are for lines. -/
  | multiLine
  /-- A dot matches a newline too. -/
  | dotAll
  /-- Quantifiers are lazy, and greedy behind a question mark. -/
  | swapGreed
  /-- Classes and word boundaries are those of Unicode. -/
  | unicode
  /-- A carriage return ends a line too. -/
  | crlf
  deriving DecidableEq, Repr

/-- The flag of a letter. -/
def Flag.ofLetter? : Char → Option Flag
  | 'i' => some .ignoreCase
  | 'm' => some .multiLine
  | 's' => some .dotAll
  | 'U' => some .swapGreed
  | 'u' => some .unicode
  | 'R' => some .crlf
  | _ => none

/-- What a group opening says about the flags inside: those it names, each with
whether it is turned on. -/
abbrev FlagChange := List (Flag × Bool)

/-- A symbol of a written pattern. -/
inductive Symbol where
  | literal (c : Char)
  /-- A character given by two hexadecimal digits, which are a byte where Unicode
  is turned off. -/
  | byte (c : Char)
  | oneOf (cls : CharClass)
  /-- A dot: any character. -/
  | dot
  /-- A caret: the start of the text or of a line. -/
  | caret
  /-- A dollar sign: the end of the text or of a line. -/
  | dollar
  | anchor (a : Anchor)
  /-- From `least` to `most` rounds of what stands before it. -/
  | quantifier (least : Nat) (most : Option Nat) (greedy : Bool)
  /-- A bar: the end of an alternative. -/
  | bar
  /-- The opening of a group, with its name if it has one. -/
  | openGroup (name : Option (List Char)) (change : FlagChange)
  /-- Flags for the rest of the group around them. -/
  | setFlags (change : FlagChange)
  /-- The end of a group. -/
  | closeGroup
  deriving DecidableEq, Repr

/-! ## Escapes -/

/-- What stands after a backslash. -/
inductive Escape where
  | literal (c : Char)
  /-- A character given by two hexadecimal digits. -/
  | byte (c : Char)
  | oneOf (cls : CharClass)
  | anchor (a : Anchor)

/-- The character with a code point, unless the number is none. -/
def scalar? (n : Nat) : Option Char :=
  if n.isValidChar then some (Char.ofNat n) else none

/-- Reads a code point: `width` hexadecimal digits, or any number of them in
braces. -/
def readHex (width : Nat) : List Char → Option (Char × List Char)
  | '{' :: rest =>
    let digits := rest.takeWhile (· ≠ '}')
    match rest.dropWhile (· ≠ '}') with
    | '}' :: rest =>
      if digits.isEmpty then none
      else do
        let c ← (Text.hexNumber? digits).bind scalar?
        some (c, rest)
    | _ => none
  | cs =>
    if cs.length < width then none
    else do
      let c ← (Text.hexNumber? (cs.take width)).bind scalar?
      some (c, cs.drop width)

/-- The characters that may stand in the name of a word boundary in braces. -/
def isBoundaryNameChar (c : Char) : Bool :=
  c.isAlpha || c == '-'

/-- Reads what follows `\b`: nothing, or a name in braces of one side of a
boundary. -/
def readBoundary (cs : List Char) : Option (Anchor × List Char) :=
  match cs with
  | '{' :: c :: rest =>
    if isBoundaryNameChar c then
      let name := (c :: rest).takeWhile isBoundaryNameChar
      match (c :: rest).dropWhile isBoundaryNameChar with
      | '}' :: rest =>
        if name = "start".toList then some (.word .wordStart, rest)
        else if name = "end".toList then some (.word .wordEnd, rest)
        else if name = "start-half".toList then some (.word .afterNonWord, rest)
        else if name = "end-half".toList then some (.word .beforeNonWord, rest)
        else none
      | _ => none
    else some (.boundary, cs)
  | _ => some (.boundary, cs)

/-- Reads what follows a backslash. A punctuation character of ASCII stands
for itself; an unknown letter and any digit are errors. -/
def readEscape : List Char → Option (Escape × List Char)
  | [] => none
  | 'd' :: rest => some (.oneOf .digit, rest)
  | 'D' :: rest => some (.oneOf (.compl .digit), rest)
  | 'w' :: rest => some (.oneOf .word, rest)
  | 'W' :: rest => some (.oneOf (.compl .word), rest)
  | 's' :: rest => some (.oneOf .blank, rest)
  | 'S' :: rest => some (.oneOf (.compl .blank), rest)
  | 'x' :: '{' :: rest => (readHex 2 ('{' :: rest)).map fun r => (.literal r.1, r.2)
  | 'x' :: rest => (readHex 2 rest).map fun r => (.byte r.1, r.2)
  | 'u' :: rest => (readHex 4 rest).map fun r => (.literal r.1, r.2)
  | 'U' :: rest => (readHex 8 rest).map fun r => (.literal r.1, r.2)
  | 'a' :: rest => some (.literal '\x07', rest)
  | 'f' :: rest => some (.literal '\x0c', rest)
  | 't' :: rest => some (.literal '\t', rest)
  | 'n' :: rest => some (.literal '\n', rest)
  | 'r' :: rest => some (.literal '\r', rest)
  | 'v' :: rest => some (.literal '\x0b', rest)
  | 'A' :: rest => some (.anchor .textStart, rest)
  | 'z' :: rest => some (.anchor .textEnd, rest)
  | 'b' :: rest => (readBoundary rest).map fun r => (.anchor r.1, r.2)
  | 'B' :: rest => some (.anchor (.word .notBoundary), rest)
  | '<' :: rest => some (.anchor (.word .wordStart), rest)
  | '>' :: rest => some (.anchor (.word .wordEnd), rest)
  | c :: rest => if c.toNat < 128 ∧ ¬c.isAlphanum then some (.literal c, rest) else none

/-! ## Bracketed classes -/

/-- The ASCII classes that have a name inside brackets. -/
def namedClasses : List (String × List (Char × Char)) := [
  ("alnum", [('0', '9'), ('A', 'Z'), ('a', 'z')]),
  ("alpha", [('A', 'Z'), ('a', 'z')]),
  ("ascii", [('\x00', '\x7f')]),
  ("blank", [('\t', '\t'), (' ', ' ')]),
  ("cntrl", [('\x00', '\x1f'), ('\x7f', '\x7f')]),
  ("digit", [('0', '9')]),
  ("graph", [('!', '~')]),
  ("lower", [('a', 'z')]),
  ("print", [(' ', '~')]),
  ("punct", [('!', '/'), (':', '@'), ('[', '\x60'), ('\x7b', '~')]),
  ("space", [('\t', '\r'), (' ', ' ')]),
  ("upper", [('A', 'Z')]),
  ("word", [('0', '9'), ('A', 'Z'), ('_', '_'), ('a', 'z')]),
  ("xdigit", [('0', '9'), ('A', 'F'), ('a', 'f')])]

/-- The class of a name. -/
def namedClass? (name : List Char) : Option CharClass :=
  (namedClasses.find? fun entry => entry.1.toList = name).map fun entry =>
    entry.2.foldr (fun r rest => .union (.range r.1 r.2) rest) .none

/-- Reads a named class such as `:alpha:]` or `:^alpha:]`, after its opening
bracket. -/
def readNamedClass : List Char → Option (CharClass × List Char)
  | ':' :: cs =>
    let (negated, cs) := match cs with
      | '^' :: cs => (true, cs)
      | cs => (false, cs)
    match cs.dropWhile (· ≠ ':') with
    | ':' :: ']' :: rest => do
      let cls ← namedClass? (cs.takeWhile (· ≠ ':'))
      some (if negated then .compl cls else cls, rest)
    | _ => none
  | _ => none

/-- An operator between two classes in brackets. -/
inductive SetOperator where
  | inter
  | diff
  | symmDiff

/-- The class that an operator makes of two. -/
def SetOperator.apply : SetOperator → CharClass → CharClass → CharClass
  | .inter, a, b => .inter a b
  | .diff, a, b => .diff a b
  | .symmDiff, a, b => .symmDiff a b

/-- A bracketed class that is not closed yet: whether it is negated, the
operand and operator before the last operator, and the members since. -/
structure Bracket where
  negated : Bool
  left : Option (CharClass × SetOperator)
  members : CharClass

/-- The bracket with more members. -/
def Bracket.add (b : Bracket) (cls : CharClass) : Bracket :=
  { b with members := .union b.members cls }

/-- The operand that the bracket holds so far. -/
def Bracket.operand (b : Bracket) : CharClass :=
  match b.left with
  | none => b.members
  | some (a, op) => op.apply a b.members

/-- The bracket after an operator. Operators of one bracket group to the left. -/
def Bracket.operator (b : Bracket) (op : SetOperator) : Bracket :=
  { b with left := some (b.operand, op), members := .none }

/-- The class of a closed bracket. -/
def Bracket.value (b : Bracket) : CharClass :=
  if b.negated then .compl b.operand else b.operand

/-- Reads the hyphens that a bracket begins with. They stand for themselves. -/
def Bracket.addHyphens (b : Bracket) : List Char → Bracket × List Char
  | '-' :: rest => (b.add (.single '-')).addHyphens rest
  | cs => (b, cs)

/-- Opens a bracket: an optional `^`, then hyphens, or a closing bracket that
stands for itself because it is the first character. -/
def Bracket.opening (cs : List Char) : Bracket × List Char :=
  let (b, cs) : Bracket × List Char := match cs with
    | '^' :: cs => (⟨true, none, .none⟩, cs)
    | cs => (⟨false, none, .none⟩, cs)
  match cs with
  | ']' :: rest => (b.add (.single ']'), rest)
  | cs => b.addHyphens cs

/-- The character that an escape stands for, if it is a single one. -/
def Escape.char? : Escape → Option Char
  | .literal c | .byte c => some c
  | _ => none

/-- Reads one member of a bracket that may be an end of a range. -/
def readMember : List Char → Option (Escape × List Char)
  | [] => none
  | '\\' :: rest => readEscape rest
  | c :: rest => some (.literal c, rest)

/-- Reads a member or a range of a bracket. A hyphen before the closing bracket
or before another hyphen is no range. -/
def readRange (cs : List Char) : Option (CharClass × List Char) := do
  let (first, rest) ← readMember cs
  let alone : Option (CharClass × List Char) := match first with
    | .literal c | .byte c => some (.single c, rest)
    | .oneOf cls => some (cls, rest)
    | .anchor _ => none
  match rest with
  | '-' :: c :: tail =>
    if c = ']' ∨ c = '-' then alone
    else
      let (last, rest) ← readMember (c :: tail)
      let a ← first.char?
      let b ← last.char?
      if a ≤ b then some (.range a b, rest) else none
  | _ => alone

/-- Reads a bracket to its end, inside the brackets `outer`. Every step reads a
character, so `fuel` steps reach the end of `fuel` characters. -/
def readBracket : Nat → Bracket → List Bracket → List Char → Option (CharClass × List Char)
  | 0, _, _, _ => none
  | fuel + 1, b, outer, cs =>
    match cs with
    | ']' :: rest =>
      match outer with
      | [] => some (b.value, rest)
      | o :: outer => readBracket fuel (o.add b.value) outer rest
    | '&' :: '&' :: rest => readBracket fuel (b.operator .inter) outer rest
    | '-' :: '-' :: rest => readBracket fuel (b.operator .diff) outer rest
    | '~' :: '~' :: rest => readBracket fuel (b.operator .symmDiff) outer rest
    | '[' :: rest =>
      match readNamedClass rest with
      | some (cls, rest) => readBracket fuel (b.add cls) outer rest
      | none =>
        let (inner, rest) := Bracket.opening rest
        readBracket fuel inner (b :: outer) rest
    | cs => do
      let (cls, rest) ← readRange cs
      readBracket fuel (b.add cls) outer rest

/-- Reads a bracketed class after its opening bracket. -/
def readClass (cs : List Char) : Option (CharClass × List Char) :=
  let (b, rest) := Bracket.opening cs
  readBracket cs.length b [] rest

/-! ## Quantifiers -/

/-- The largest number that a quantifier may count to. -/
def maxCount : Nat := 4294967295

/-- Reads a number with blanks around it. -/
def readCount (cs : List Char) : Option (Nat × List Char) :=
  let cs := Text.dropBlanks cs
  let digits := cs.takeWhile Char.isDigit
  let n := digits.foldl (fun n c => 10 * n + (c.toNat - '0'.toNat)) 0
  if digits.isEmpty ∨ maxCount < n then none
  else some (n, Text.dropBlanks (cs.dropWhile Char.isDigit))

/-- A quantifier, which a question mark after it makes lazy. -/
def withGreed (least : Nat) (most : Option Nat) : List Char → Symbol × List Char
  | '?' :: rest => (.quantifier least most false, rest)
  | rest => (.quantifier least most true, rest)

/-- Reads a counted quantifier after its opening brace: `n}`, `n,}` or `n,m}`
with `n` at most `m`. -/
def readCounted (cs : List Char) : Option (Symbol × List Char) := do
  let (least, rest) ← readCount cs
  match rest with
  | '}' :: rest => some (withGreed least (some least) rest)
  | ',' :: '}' :: rest => some (withGreed least none rest)
  | ',' :: rest =>
    let (most, rest) ← readCount rest
    match rest with
    | '}' :: rest => if least ≤ most then some (withGreed least (some most) rest) else none
    | _ => none
  | _ => none

/-! ## Groups -/

/-- A character that a group name may begin with. -/
def beginsGroupName (c : Char) : Bool :=
  c == '_' || Text.isLetter c

/-- A character that a group name may go on with. -/
def continuesGroupName (c : Char) : Bool :=
  c == '_' || c == '.' || c == '[' || c == ']' || Text.isLetter c || Text.isDigit c ||
    Text.isOtherNumber c

/-- Reads a group name up to and with its closing angle bracket. -/
def readGroupName (cs : List Char) : Option (List Char × List Char) :=
  match cs.takeWhile (· ≠ '>'), cs.dropWhile (· ≠ '>') with
  | c :: name, '>' :: rest =>
    if beginsGroupName c && name.all continuesGroupName then some (c :: name, rest) else none
  | _, _ => none

/-- Reads the flags after `(?`, up to a colon or a closing parenthesis. No flag
may be named twice, and a minus is followed by at least one flag. -/
def readFlags (negated dangling : Bool) (change : FlagChange) : List Char → Option (Symbol × List Char)
  | [] => none
  | ':' :: rest => if dangling then none else some (.openGroup none change, rest)
  | ')' :: rest => if dangling || change.isEmpty then none else some (.setFlags change, rest)
  | '-' :: rest => if negated then none else readFlags true true change rest
  | c :: rest => do
    let flag ← Flag.ofLetter? c
    if change.any (·.1 = flag) then none
    else readFlags negated false ((flag, !negated) :: change) rest

/-- Reads what follows an opening parenthesis. -/
def readOpening : List Char → Option (Symbol × List Char)
  | '?' :: 'P' :: '<' :: rest => (readGroupName rest).map fun r => (.openGroup (some r.1) [], r.2)
  | '?' :: '<' :: rest => (readGroupName rest).map fun r => (.openGroup (some r.1) [], r.2)
  | '?' :: rest => readFlags false false [] rest
  | rest => some (.openGroup none [], rest)

/-! ## Whole patterns -/

/-- Reads the first symbol of a text. -/
def Symbol.read : List Char → Option (Symbol × List Char)
  | [] => none
  | '\\' :: rest => (readEscape rest).map fun
    | (.literal c, rest) => (.literal c, rest)
    | (.byte c, rest) => (.byte c, rest)
    | (.oneOf cls, rest) => (.oneOf cls, rest)
    | (.anchor a, rest) => (.anchor a, rest)
  | '[' :: rest => (readClass rest).map fun r => (.oneOf r.1, r.2)
  | '(' :: rest => readOpening rest
  | ')' :: rest => some (.closeGroup, rest)
  | '|' :: rest => some (.bar, rest)
  | '.' :: rest => some (.dot, rest)
  | '^' :: rest => some (.caret, rest)
  | '$' :: rest => some (.dollar, rest)
  | '*' :: rest => some (withGreed 0 none rest)
  | '+' :: rest => some (withGreed 1 none rest)
  | '?' :: rest => some (withGreed 0 (some 1) rest)
  | '{' :: rest => readCounted rest
  | c :: rest => some (.literal c, rest)

/-- Reads the symbols of a text. Every symbol takes a character, so as much
`fuel` as there are characters is enough. -/
def Symbol.readUpTo : Nat → List Char → Option (List Symbol)
  | _, [] => some []
  | 0, _ :: _ => none
  | fuel + 1, cs => do
    let (s, rest) ← Symbol.read cs
    let symbols ← Symbol.readUpTo fuel rest
    some (s :: symbols)

/-- The symbols of a written pattern. -/
def Symbol.readAll (cs : List Char) : Option (List Symbol) :=
  Symbol.readUpTo cs.length cs

end LineTint.Pattern
