/-!
# Texts as bytes

Offsets into a line count the bytes of its UTF-8 form. `byteLength` is that
count for a list of characters, `splitBytes` cuts a text at an offset, and
`utf8` and `decode?` go between texts and their bytes. `shown` is the text that
stands in a message for bytes that need not be UTF-8.
-/

namespace LineTint.Text
set_option autoImplicit false

/-- The length of a text in UTF-8. -/
def byteLength : List Char → Nat
  | [] => 0
  | c :: cs => c.utf8Size + byteLength cs

@[simp] theorem byteLength_nil : byteLength [] = 0 := rfl

@[simp] theorem byteLength_cons (c : Char) (cs : List Char) :
    byteLength (c :: cs) = c.utf8Size + byteLength cs := rfl

@[simp] theorem byteLength_append (a b : List Char) :
    byteLength (a ++ b) = byteLength a + byteLength b := by
  induction a with
  | nil => simp
  | cons c cs ih => rw [List.cons_append, byteLength_cons, byteLength_cons, ih, Nat.add_assoc]

/-- A text cut after as many whole characters as fit into `n` bytes. -/
def splitBytes : Nat → List Char → List Char × List Char
  | _, [] => ([], [])
  | n, c :: rest =>
    if c.utf8Size ≤ n then
      let (front, back) := splitBytes (n - c.utf8Size) rest
      (c :: front, back)
    else ([], c :: rest)

theorem splitBytes_fst_append_snd (n : Nat) (cs : List Char) :
    (splitBytes n cs).1 ++ (splitBytes n cs).2 = cs := by
  induction cs generalizing n with
  | nil => rfl
  | cons c rest ih =>
    simp only [splitBytes]
    split
    · simp [ih]
    · rfl

theorem splitBytes_byteLength (a b : List Char) : splitBytes (byteLength a) (a ++ b) = (a, b) := by
  induction a with
  | nil =>
    cases b with
    | nil => rfl
    | cons c rest =>
      have := c.utf8Size_pos
      simp only [byteLength_nil, List.nil_append, splitBytes]
      rw [if_neg (by omega)]
  | cons c rest ih => simp [splitBytes, ih]

/-- The UTF-8 form of a text. -/
def utf8 (s : String) : List UInt8 :=
  s.toUTF8.data.toList

/-- The text that bytes are the UTF-8 form of, if they are one. -/
def decode? (bytes : List UInt8) : Option String :=
  String.fromUTF8? bytes.toByteArray

/-- The character whose UTF-8 form the bytes begin with. -/
def firstChar? (bytes : List UInt8) : Option Char :=
  bytes.toByteArray.utf8DecodeChar? 0

/-- How many bytes follow the first byte of a character of several bytes, and
between which bounds the first of them is. -/
def followers? (b : UInt8) : Option (Nat × UInt8 × UInt8) :=
  if 0xC2 ≤ b ∧ b ≤ 0xDF then some (1, 0x80, 0xBF)
  else if b = 0xE0 then some (2, 0xA0, 0xBF)
  else if b = 0xED then some (2, 0x80, 0x9F)
  else if 0xE1 ≤ b ∧ b ≤ 0xEF then some (2, 0x80, 0xBF)
  else if b = 0xF0 then some (3, 0x90, 0xBF)
  else if b = 0xF4 then some (3, 0x80, 0x8F)
  else if 0xF1 ≤ b ∧ b ≤ 0xF3 then some (3, 0x80, 0xBF)
  else none

/-- How many bytes behind `b`, the first byte of no whole character, are shown
with it: those with which it could still become one. -/
def brokenFollowers (b : UInt8) (rest : List UInt8) : Nat :=
  match followers? b, rest with
  | some (n, low, high), c :: rest =>
    if low ≤ c ∧ c ≤ high then
      1 + ((rest.take (n - 1)).takeWhile fun c => 0x80 ≤ c ∧ c ≤ 0xBF).length
    else 0
  | _, _ => 0

/-- The characters that are shown for bytes, of which the first `skip` belong
to a character that is shown already. -/
def shownFrom : Nat → List UInt8 → List Char
  | _, [] => []
  | skip + 1, _ :: rest => shownFrom skip rest
  | 0, b :: rest =>
    match firstChar? (b :: rest) with
    | some c => c :: shownFrom (c.utf8Size - 1) rest
    | none => '\uFFFD' :: shownFrom (brokenFollowers b rest) rest

/-- Bytes as a text for readers: the text that they are the UTF-8 form of, with
a replacement character for each part that is none. -/
def shown (bytes : List UInt8) : String :=
  .ofList (shownFrom 0 bytes)

end LineTint.Text
