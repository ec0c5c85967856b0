import LineTint.Pattern.WholeWord

/-!
# Patterns written for given texts

The patterns of listed words and of delimiters in written form. Every character
with a meaning of its own in patterns is written behind a backslash, so the
form spells the words and delimiters themselves.
-/

namespace LineTint.Pattern
set_option autoImplicit false

/-- The characters with a meaning of their own in written patterns. -/
def syntaxChars : List Char :=
  ['\\', '.', '+', '*', '?', '(', ')', '|', '[', ']', '{', '}', '^', '$', '#', '&', '-', '~']

/-- A character written so that it stands for itself. -/
def escapeChar (c : Char) : List Char :=
  if c ∈ syntaxChars then ['\\', c] else [c]

/-- A text written so that it stands for itself. -/
def escape (text : List Char) : List Char :=
  text.flatMap escapeChar

/-- The written pattern of one of some words, whole: `\b(?:one|other)\b`. -/
def wordsText (words : List (List Char)) : List Char :=
  ['\\', 'b', '(', '?', ':'] ++ ['|'].intercalate (words.map escape) ++ [')', '\\', 'b']

/-- The written pattern of listed words; `none` if every listed word is empty. -/
def wholeWordText? (words : List String) : Option String :=
  match candidates words with
  | [] => none
  | w :: ws => some (.ofList (wordsText ((w :: ws).map String.toList)))

/-- The written class of some characters. -/
def classText (cs : List Char) : List Char :=
  '[' :: escape cs ++ [']']

/-- The written pattern of a text between delimiters: `[d].*?[d]`. Without
delimiters there is none. -/
def delimitedText? (delimiters : List Char) : Option String :=
  match delimiters with
  | [] => none
  | d :: ds => some (.ofList (classText (d :: ds) ++ ['.', '*', '?'] ++ classText (d :: ds)))

example : delimitedText? ['"', ']'] = some "[\"\\]].*?[\"\\]]" := by decide

end LineTint.Pattern
