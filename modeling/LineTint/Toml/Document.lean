import LineTint.Toml.Draft
import LineTint.Toml.Quoted
import LineTint.Toml.Scalar

/-!
# TOML documents

`Toml.read?` reads a document into its table, or finds that it is none. A
document is lines with key-value pairs, headers of tables and comments; arrays
go over several lines, inline tables do not.
-/

namespace LineTint.Toml
set_option autoImplicit false

/-- Arrays and inline tables may not be nested this deep, and a dotted key may
not have this many parts. -/
def depthLimit : Nat := 80

/-! ## Blanks and comments -/

/-- The text after its blanks. -/
def dropSpace (cs : List Char) : List Char :=
  cs.dropWhile isSpace

/-- Reads to the end of a line that holds nothing more, or only a comment
(`comment`, once its mark has been read). -/
def readLineEnd (comment : Bool) : List Char → Option (List Char)
  | [] => some []
  | '\n' :: rest => some rest
  | '\r' :: '\n' :: rest => some rest
  | c :: rest =>
    if comment then if isPrintable c then readLineEnd true rest else none
    else if isSpace c then readLineEnd false rest
    else if c = '#' then readLineEnd true rest
    else none

/-- Reads blanks, newlines and comments, up to something else. -/
def readFiller (comment : Bool) : List Char → Option (List Char)
  | [] => some []
  | '\n' :: rest => readFiller false rest
  | '\r' :: '\n' :: rest => readFiller false rest
  | c :: rest =>
    if comment then if isPrintable c then readFiller true rest else none
    else if isSpace c then readFiller false rest
    else if c = '#' then readFiller true rest
    else some (c :: rest)

/-! ## Keys -/

/-- A character of a key without quotes. -/
def isBareKeyChar (c : Char) : Bool :=
  c.isAlphanum || c == '_' || c == '-'

/-- Reads one part of a key. -/
def readKeyPart : List Char → Option (String × List Char)
  | '"' :: rest => (readBasic rest).map fun r => (.ofList r.1, r.2)
  | '\'' :: rest => (readLiteral rest).map fun r => (.ofList r.1, r.2)
  | cs =>
    let part := cs.takeWhile isBareKeyChar
    if part.isEmpty then none else some (.ofList part, cs.dropWhile isBareKeyChar)

/-- Reads the parts of a dotted key, at most `limit` of them, with the blanks
around them: all but the last, the last, and the rest of the text. -/
def readKey : Nat → List Char → Option (List String × String × List Char)
  | 0, _ => none
  | limit + 1, cs => do
    let (part, rest) ← readKeyPart (dropSpace cs)
    match dropSpace rest with
    | '.' :: rest =>
      let (path, key, rest) ← readKey limit rest
      some (part :: path, key, rest)
    | rest => some ([], part, rest)

/-! ## Values -/

mutual

/-- Reads a value, with at most `depth` arrays and inline tables around it.
Every call reads a character, so `fuel` calls read as many characters. -/
def readValue : Nat → Nat → List Char → Option (Value × List Char)
  | 0, _, _ => none
  | fuel + 1, depth, cs =>
    match cs with
    | '"' :: _ => (readQuoted cs).map fun r => (.string (.ofList r.1), r.2)
    | '\'' :: _ => (readQuoted cs).map fun r => (.string (.ofList r.1), r.2)
    | '[' :: rest =>
      match depth with
      | 0 => none
      | depth + 1 => (readItems fuel depth rest).map fun r => (.array r.1, r.2)
    | '{' :: rest =>
      match depth with
      | 0 => none
      | depth + 1 =>
        match dropSpace rest with
        | '}' :: rest => some (.table [], rest)
        | rest => (readPairs fuel depth .empty rest).map fun r => (r.1.toValue, r.2)
    | _ => readScalar cs

/-- Reads the items of an array up to its closing bracket. A comma may stand
after the last. -/
def readItems : Nat → Nat → List Char → Option (List Value × List Char)
  | 0, _, _ => none
  | fuel + 1, depth, cs => do
    match ← readFiller false cs with
    | ']' :: rest => some ([], rest)
    | cs =>
      let (v, rest) ← readValue fuel depth cs
      match ← readFiller false rest with
      | ',' :: rest =>
        let (vs, rest) ← readItems fuel depth rest
        some (v :: vs, rest)
      | ']' :: rest => some ([v], rest)
      | _ => none

/-- Reads the pairs of an inline table up to its closing brace. -/
def readPairs : Nat → Nat → Draft → List Char → Option (Draft × List Char)
  | 0, _, _, _ => none
  | fuel + 1, depth, d, cs => do
    let (path, key, rest) ← readKey (depthLimit - 1) cs
    match rest with
    | '=' :: rest =>
      let (v, rest) ← readValue fuel depth (dropSpace rest)
      let d ← d.assign path key v
      match dropSpace rest with
      | ',' :: rest => readPairs fuel depth d rest
      | '}' :: rest => some (d, rest)
      | _ => none
    | _ => none

end

/-! ## Lines -/

/-- What has been read of a document: its tables so far, and the path of the
last header. -/
structure Progress where
  root : Draft
  header : List String

/-- Reads the header of a table, after its opening bracket. -/
def readHeader (p : Progress) (cs : List Char) : Option (Progress × List Char) := do
  let (path, key, rest) ← readKey (depthLimit - 1) cs
  match rest with
  | ']' :: rest =>
    let root ← p.root.update false (Draft.openTable key) path
    some (⟨root, path ++ [key]⟩, rest)
  | _ => none

/-- Reads the header of a table in an array, after its opening brackets. -/
def readArrayHeader (p : Progress) (cs : List Char) : Option (Progress × List Char) := do
  let (path, key, rest) ← readKey (depthLimit - 1) cs
  match rest with
  | ']' :: ']' :: rest =>
    let root ← p.root.update false (Draft.openNext key) path
    some (⟨root, path ++ [key]⟩, rest)
  | _ => none

/-- Reads a key-value pair into the table of the last header. -/
def readPair (p : Progress) (cs : List Char) : Option (Progress × List Char) := do
  let (path, key, rest) ← readKey (depthLimit - 1) cs
  match rest with
  | '=' :: rest =>
    let (v, rest) ← readValue (2 * cs.length) (depthLimit - 1) (dropSpace rest)
    let root ← p.root.update false (Draft.assign path key v) p.header
    some ({ p with root }, rest)
  | _ => none

/-- Reads a line that begins with something: a header or a key-value pair. -/
def readLine (p : Progress) : List Char → Option (Progress × List Char)
  | '[' :: '[' :: rest => readArrayHeader p rest
  | '[' :: rest => readHeader p rest
  | cs => readPair p cs

/-- Reads the lines of a document. Every line has a character, so as much
`fuel` as there are characters is enough. -/
def readLines : Nat → Progress → List Char → Option Draft
  | 0, p, cs => do
    if (← readFiller false cs).isEmpty then some p.root else none
  | fuel + 1, p, cs => do
    let cs ← readFiller false cs
    if cs.isEmpty then some p.root
    else
      let (p, rest) ← readLine p cs
      readLines fuel p (← readLineEnd false rest)

/-- The text without the byte order mark it may begin with. -/
def dropMark : List Char → List Char
  | '\ufeff' :: rest => rest
  | cs => cs

/-- The table of a document. -/
def read? (text : String) : Option Table :=
  let cs := dropMark text.toList
  (readLines cs.length ⟨.empty, []⟩ cs).map Draft.toTable

end LineTint.Toml
