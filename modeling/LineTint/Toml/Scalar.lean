import LineTint.Text.Digit
import LineTint.Toml.Value

/-!
# Numbers, dates and truth values of TOML

A value without quotes or brackets is one word, or a date and a time with a
space between them. `scalar?` tells from its characters what a word is: a truth
value, a date or a time of day, an integer of 64 bits, or a float that is not too
large.
-/

namespace LineTint.Toml
set_option autoImplicit false

/-- The number that ASCII digits spell. -/
def digitsValue (base : Nat) (digits : List Char) : Nat :=
  digits.foldl (fun n c => base * n + (Text.hexValue? c).getD 0) 0

/-- A digit of the given base. -/
def isDigitOf (base : Nat) (c : Char) : Bool :=
  (Text.hexValue? c).any (· < base)

/-- The digits of a number, without the low lines that may stand between two
of them; `none` if the text is no such row of digits. -/
def digits? (base : Nat) : List Char → Option (List Char)
  | [] => none
  | [c] => if isDigitOf base c then some [c] else none
  | c :: '_' :: rest => if isDigitOf base c then (c :: ·) <$> digits? base rest else none
  | c :: rest => if isDigitOf base c then (c :: ·) <$> digits? base rest else none

/-- A sign and what follows it. -/
def splitSign : List Char → Bool × List Char
  | '-' :: rest => (true, rest)
  | '+' :: rest => (false, rest)
  | cs => (false, cs)

/-- Decimal digits without a needless zero in front. -/
def plainDigits? (cs : List Char) : Option (List Char) :=
  match cs with
  | '0' :: _ :: _ => none
  | _ => digits? 10 cs

/-! ## Integers -/

/-- The integer, if it fits into 64 bits. -/
def int64? (n : Int) : Option Value :=
  if -9223372036854775808 ≤ n ∧ n ≤ 9223372036854775807 then some (.integer n) else none

/-- An integer: decimal with an optional sign, or hexadecimal, octal or binary
without one. -/
def integer? (cs : List Char) : Option Value :=
  match cs with
  | '0' :: 'x' :: rest => (digits? 16 rest).bind fun ds => int64? (digitsValue 16 ds)
  | '0' :: 'o' :: rest => (digits? 8 rest).bind fun ds => int64? (digitsValue 8 ds)
  | '0' :: 'b' :: rest => (digits? 2 rest).bind fun ds => int64? (digitsValue 2 ds)
  | _ =>
    let (negative, rest) := splitSign cs
    (plainDigits? rest).bind fun ds =>
      let n : Int := digitsValue 10 ds
      int64? (if negative then -n else n)

/-! ## Floats -/

/-- The least number that rounds to infinity as a float of 64 bits: halfway
between the largest float and the next power of two. -/
def overflowBound : Nat := Nat.pow 2 1024 - Nat.pow 2 970

/-- The number `m · 10 ^ e` is too large for a float. Unless its number of digits decides
already, the comparison is exact. -/
def overflows (m : Nat) (e : Int) : Bool :=
  let magnitude : Int := (Nat.toDigits 10 m).length + e
  if m = 0 ∨ magnitude < 308 then false
  else if 310 < magnitude then true
  else if 0 ≤ e then decide (overflowBound ≤ m * Nat.pow 10 e.toNat)
  else decide (overflowBound * Nat.pow 10 (-e).toNat ≤ m)

/-- The whole part, the fraction and the exponent of a written float. The
fraction or the exponent may be missing, but not both. -/
def floatParts? (cs : List Char) : Option (List Char × List Char × Int) := do
  let isMark (c : Char) : Bool := c == '.' || c == 'e' || c == 'E'
  let whole ← plainDigits? (cs.takeWhile (!isMark ·))
  let exponent? (cs : List Char) : Option Int := do
    let (negative, rest) := splitSign cs
    let n : Int := digitsValue 10 (← digits? 10 rest)
    some (if negative then -n else n)
  match cs.dropWhile (!isMark ·) with
  | '.' :: rest =>
    let fraction ← digits? 10 (rest.takeWhile (!isMark ·))
    match rest.dropWhile (!isMark ·) with
    | [] => some (whole, fraction, 0)
    | '.' :: _ => none
    | _ :: rest => (whole, fraction, ·) <$> exponent? rest
  | _ :: rest => (whole, [], ·) <$> exponent? rest
  | [] => none

/-- A float. One that is too large is refused, unless it is negative. -/
def float? (cs : List Char) : Option Value := do
  let (negative, rest) := splitSign cs
  let value : Value := .float (.ofList cs)
  if rest = "inf".toList ∨ rest = "nan".toList then some value
  else
    let (whole, fraction, e) ← floatParts? rest
    let m := digitsValue 10 (whole ++ fraction)
    if !negative && overflows m (e - fraction.length) then none else some value

/-! ## Dates and times -/

/-- The number of days of a month. -/
def daysInMonth (year month : Nat) : Nat :=
  if month = 2 then
    if year % 4 = 0 ∧ (year % 100 ≠ 0 ∨ year % 400 = 0) then 29 else 28
  else if month = 4 ∨ month = 6 ∨ month = 9 ∨ month = 11 then 30
  else 31

/-- The number that some digits spell, if they are decimal digits and the number
lies between the bounds. -/
def field? (low high : Nat) (digits : List Char) : Option Nat :=
  if digits.all (isDigitOf 10) then
    let n := digitsValue 10 digits
    if low ≤ n ∧ n ≤ high then some n else none
  else none

/-- Reads a date at the front of a text. -/
def readDate : List Char → Option (List Char)
  | a :: b :: c :: d :: '-' :: e :: f :: '-' :: g :: h :: rest => do
    let year ← field? 0 9999 [a, b, c, d]
    let month ← field? 1 12 [e, f]
    let _ ← field? 1 (daysInMonth year month) [g, h]
    some rest
  | _ => none

/-- Reads a time of day at the front of a text. A second may be a leap second,
and a fraction of a second has at least one digit. -/
def readTime : List Char → Option (List Char)
  | a :: b :: ':' :: c :: d :: ':' :: e :: f :: rest => do
    let _ ← field? 0 23 [a, b]
    let _ ← field? 0 59 [c, d]
    let _ ← field? 0 60 [e, f]
    match rest with
    | '.' :: rest =>
      if (rest.takeWhile (isDigitOf 10)).isEmpty then none
      else some (rest.dropWhile (isDigitOf 10))
    | _ => some rest
  | _ => none

/-- The text is nothing or an offset from universal time. -/
def isOffset : List Char → Bool
  | [] => true
  | ['Z'] => true
  | ['z'] => true
  | [s, a, b, ':', c, d] =>
    (s == '+' || s == '-') && (field? 0 23 [a, b]).isSome && (field? 0 59 [c, d]).isSome
  | _ => false

/-- The text is a date, a time of day, or both with a letter or a space between
them, and then perhaps an offset. -/
def isDatetime (cs : List Char) : Bool :=
  match readDate cs with
  | some [] => true
  | some (t :: rest) =>
    (t == 'T' || t == 't' || t == ' ') && (readTime rest).any isOffset
  | none => readTime cs == some []

/-! ## Words -/

/-- The value that a word without quotes stands for. -/
def scalar? (cs : List Char) : Option Value :=
  if cs = "true".toList then some (.boolean true)
  else if cs = "false".toList then some (.boolean false)
  else if isDatetime cs then some (.datetime (.ofList cs))
  else integer? cs <|> float? cs

/-- A character of a word without quotes. -/
def isScalarChar (c : Char) : Bool :=
  c.isAlphanum || c == '+' || c == '-' || c == '_' || c == '.' || c == ':'

/-- Reads a value without quotes. A date, a space and a digit go on as one word. -/
def readScalar (cs : List Char) : Option (Value × List Char) :=
  let word := cs.takeWhile isScalarChar
  let rest := cs.dropWhile isScalarChar
  let (word, rest) : List Char × List Char :=
    match readDate word, rest with
    | some [], ' ' :: c :: _ =>
      if c.isDigit then
        (word ++ ' ' :: (rest.drop 1).takeWhile isScalarChar, (rest.drop 1).dropWhile isScalarChar)
      else (word, rest)
    | _, _ => (word, rest)
  (scalar? word).map (·, rest)

end LineTint.Toml
