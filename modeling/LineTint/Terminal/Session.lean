import LineTint.Terminal.Basic
import LineTint.Terminal.Sink

/-!
# Sessions

A session is a row of operations on one terminal and one sink. Each writes its
texts as far as the sink takes them; operations after a failed one still run.
-/

namespace LineTint.Terminal
set_option autoImplicit false

/-- An operation on a terminal. -/
inductive Operation where
  | text (s : String)
  | apply (s : Style)
  | dim
  | reset
  | flush
  /-- Changes the theme for the operations after it. -/
  | setStyle (kind : TokenKind) (s : Style)
  | runs (rs : List Run)
  | lines (ls : List (List Run))
  deriving DecidableEq, Repr

/-- What an operation writes. -/
def Operation.writes (t : Terminal) (theme : Theme) : Operation → List String
  | .text s => [s]
  | .apply s => Terminal.apply s
  | .dim => Terminal.dim
  | .reset => Terminal.reset
  | .flush | .setStyle .. => []
  | .runs rs => t.runsWrites theme rs
  | .lines ls => t.linesWrites theme ls

/-- The theme after an operation. -/
def Operation.nextTheme (theme : Theme) : Operation → Theme
  | .setStyle kind s => theme.set kind s
  | _ => theme

/-- What becomes of each operation of a session. -/
def session (t : Terminal) (theme : Theme) (sink : Sink) : List Operation → List Delivery
  | [] => []
  | op :: ops =>
    let (d, sink) := sink.write (op.writes t theme)
    d :: session t (op.nextTheme theme) sink ops

end LineTint.Terminal
