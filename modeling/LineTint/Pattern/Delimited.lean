import LineTint.Pattern.Basic

/-!
# Delimited texts

The pattern of a text that opens and closes with any of some delimiters and
ends with the nearest one on the same line.
-/

namespace LineTint.Pattern
set_option autoImplicit false

/-- The class of all characters but the newline. -/
def notNewline : CharClass := .compl (.single '\n')

/-- A delimiter, as few characters other than newlines as possible, and a
delimiter; `none` if there are no delimiters. -/
def delimited? (delimiters : List Char) : Option Pattern :=
  match delimiters with
  | [] => none
  | d :: ds =>
    let quote := Pattern.char (.ofList (d :: ds))
    some (.seq quote (.seq (.more false (.char notNewline)) quote))

end LineTint.Pattern
