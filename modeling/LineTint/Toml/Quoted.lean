import LineTint.Text.Digit

/-!
# Quoted texts of TOML

Basic texts stand in double quotes and have escapes, literal texts stand in
single quotes and have none. Either may have three quotes instead of one; it
then goes over several lines, a newline right after the opening does not count,
and up to two quotes may stand right before the closing ones. Each function
reads what follows the opening quotes.
-/

namespace LineTint.Toml
set_option autoImplicit false

/-- A character that may stand in a comment: a tab, or no control character of
ASCII. -/
def isPrintable (c : Char) : Bool :=
  c == '\t' || (' ' ≤ c && c ≠ '\x7f')

/-- The blanks within a line. -/
def isSpace (c : Char) : Bool :=
  c == ' ' || c == '\t'

/-- The character that an escape of one letter stands for. -/
def escape? : Char → Option Char
  | 'b' => some '\x08'
  | 't' => some '\t'
  | 'n' => some '\n'
  | 'f' => some '\x0c'
  | 'r' => some '\r'
  | '"' => some '"'
  | '\\' => some '\\'
  | _ => none

/-- The character that the digits of an escape stand for. -/
def codePoint? (digits : List Char) : Option Char :=
  (Text.hexNumber? digits).bind fun n => if n.isValidChar then some (Char.ofNat n) else none

/-- A character in front of a text that has been read. -/
def ahead (c : Char) (r : List Char × List Char) : List Char × List Char :=
  (c :: r.1, r.2)

/-- Reads a basic text of one line. -/
def readBasic : List Char → Option (List Char × List Char)
  | [] => none
  | '"' :: rest => some ([], rest)
  | '\\' :: 'u' :: a :: b :: c :: d :: rest => do
    let x ← codePoint? [a, b, c, d]
    ahead x <$> readBasic rest
  | '\\' :: 'U' :: a :: b :: c :: d :: e :: f :: g :: h :: rest => do
    let x ← codePoint? [a, b, c, d, e, f, g, h]
    ahead x <$> readBasic rest
  | '\\' :: c :: rest => do
    let x ← escape? c
    ahead x <$> readBasic rest
  | c :: rest => if isPrintable c && c ≠ '\\' then ahead c <$> readBasic rest else none

/-- Reads a literal text of one line. -/
def readLiteral : List Char → Option (List Char × List Char)
  | [] => none
  | '\'' :: rest => some ([], rest)
  | c :: rest => if isPrintable c then ahead c <$> readLiteral rest else none

/-- Only blanks stand before the next newline. -/
def endsLine (cs : List Char) : Bool :=
  match cs.dropWhile isSpace with
  | '\n' :: _ => true
  | '\r' :: '\n' :: _ => true
  | _ => false

/-- Reads a basic text of several lines. After a backslash at the end of a line
it skips (`skipping`) to the next character that is neither blank nor newline. -/
def readBasicLines (skipping : Bool) : List Char → Option (List Char × List Char)
  | [] => none
  | '"' :: '"' :: '"' :: '"' :: '"' :: rest => some (['"', '"'], rest)
  | '"' :: '"' :: '"' :: '"' :: rest => some (['"'], rest)
  | '"' :: '"' :: '"' :: rest => some ([], rest)
  | '\r' :: '\n' :: rest =>
    if skipping then readBasicLines true rest else ahead '\n' <$> readBasicLines false rest
  | '\n' :: rest =>
    if skipping then readBasicLines true rest else ahead '\n' <$> readBasicLines false rest
  | '\\' :: 'u' :: a :: b :: c :: d :: rest => do
    let x ← codePoint? [a, b, c, d]
    ahead x <$> readBasicLines false rest
  | '\\' :: 'U' :: a :: b :: c :: d :: e :: f :: g :: h :: rest => do
    let x ← codePoint? [a, b, c, d, e, f, g, h]
    ahead x <$> readBasicLines false rest
  | '\\' :: c :: rest =>
    if endsLine (c :: rest) then readBasicLines true (c :: rest)
    else do
      let x ← escape? c
      ahead x <$> readBasicLines false rest
  | c :: rest =>
    if skipping && isSpace c then readBasicLines true rest
    else if isPrintable c && c ≠ '\\' then ahead c <$> readBasicLines false rest
    else none

/-- Reads a literal text of several lines. -/
def readLiteralLines : List Char → Option (List Char × List Char)
  | [] => none
  | '\'' :: '\'' :: '\'' :: '\'' :: '\'' :: rest => some (['\'', '\''], rest)
  | '\'' :: '\'' :: '\'' :: '\'' :: rest => some (['\''], rest)
  | '\'' :: '\'' :: '\'' :: rest => some ([], rest)
  | '\r' :: '\n' :: rest => ahead '\n' <$> readLiteralLines rest
  | '\n' :: rest => ahead '\n' <$> readLiteralLines rest
  | c :: rest => if isPrintable c then ahead c <$> readLiteralLines rest else none

/-- The text without a newline at its front. -/
def dropNewline : List Char → List Char
  | '\n' :: rest => rest
  | '\r' :: '\n' :: rest => rest
  | cs => cs

/-- Reads a quoted text of any form, with its opening quotes. -/
def readQuoted : List Char → Option (List Char × List Char)
  | '"' :: '"' :: '"' :: rest => readBasicLines false (dropNewline rest)
  | '"' :: rest => readBasic rest
  | '\'' :: '\'' :: '\'' :: rest => readLiteralLines (dropNewline rest)
  | '\'' :: rest => readLiteral rest
  | _ => none

end LineTint.Toml
