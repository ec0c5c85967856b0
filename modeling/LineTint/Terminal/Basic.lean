import LineTint.Run
import LineTint.Terminal.Sequence

/-!
# Terminals

What is written to show runs: their texts, with control sequences around those
that a theme styles if the terminal has colors, and in front of each line its
number if the terminal shows numbers. The number stands right-aligned in a
gutter that has the same width for all lines of a text.
-/

namespace LineTint
set_option autoImplicit false

/-- How a terminal shows runs. -/
structure Terminal where
  color : Bool
  lineNumbers : Bool
  deriving DecidableEq, Repr

namespace Terminal

/-- What is written for a run. -/
def runWrites (t : Terminal) (theme : Theme) (r : Run) : List String :=
  match r.style? theme with
  | some s => if t.color && !s.isPlain then apply s ++ [r.text] ++ reset else [r.text]
  | none => [r.text]

/-- What is written for runs one after the other. -/
def runsWrites (t : Terminal) (theme : Theme) (rs : List Run) : List String :=
  rs.flatMap (t.runWrites theme)

/-- The width of the gutter of a text with `count` lines: as many columns as
the largest number needs, at least three, and one for the space behind it. -/
def gutterWidth (count : Nat) : Nat :=
  max 3 (Nat.toDigits 10 count).length + 1

/-- A line number, right-aligned in the gutter. -/
def label (width number : Nat) : String :=
  let digits := Nat.toDigits 10 number
  .ofList (List.replicate (width - 1 - digits.length) ' ' ++ digits ++ [' '])

/-- What is written for the gutter of a line. -/
def gutterWrites (t : Terminal) (width number : Nat) : List String :=
  if t.lineNumbers then
    if t.color then dim ++ [label width number] ++ reset else [label width number]
  else []

/-- What is written for the lines of a text, with newlines between them. -/
def linesWrites (t : Terminal) (theme : Theme) (lines : List (List Run)) : List String :=
  ["\n"].intercalate <| lines.mapIdx fun i rs =>
    t.gutterWrites (gutterWidth lines.length) (i + 1) ++ t.runsWrites theme rs

end Terminal
end LineTint
