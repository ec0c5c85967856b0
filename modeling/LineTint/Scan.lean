import LineTint.Rule
import LineTint.Span

/-!
# Scanning a line

A cursor goes through the line. At each place the first rule with a match that
begins there and is not empty gives a span, and the cursor goes on behind it;
without one the cursor steps over a character.

A rule is not searched afresh at every place. `Watch` pairs a rule with what is
known of its next match, and a search is repeated only when the cursor has
passed the match that it found.
-/

namespace LineTint.Scan
set_option autoImplicit false

/-- What is known of the next match of a rule. -/
inductive Ahead where
  /-- Nothing, at the place of the cursor. -/
  | stale
  /-- The leftmost match at or after the cursor. -/
  | found (start stop : Nat)
  /-- There is no match in the rest of the line. -/
  | exhausted
  deriving DecidableEq, Repr

/-- The knowledge that is still good when the cursor has come to `cursor`. -/
def Ahead.current (cursor : Nat) : Ahead → Ahead
  | .found start stop => if start < cursor then .stale else .found start stop
  | a => a

/-- A rule and what is known of its next match. -/
structure Watch where
  rule : Rule
  ahead : Ahead
  deriving DecidableEq, Repr

/-- A rule that has not been searched. -/
def Watch.start (rule : Rule) : Watch := ⟨rule, .stale⟩

/-- The watch brought up to date at `cursor`, where `rest` stands after the
character `before`. -/
def Watch.look (before : Option Char) (cursor : Nat) (rest : List Char) (w : Watch) : Watch :=
  match w.ahead.current cursor with
  | .stale =>
    match w.rule.pattern.find? before cursor rest with
    | some (start, stop) => { w with ahead := .found start stop }
    | none => { w with ahead := .exhausted }
  | ahead => { w with ahead }

/-- The span at the cursor, if the known match begins there and is not empty. -/
def Watch.hit? (cursor : Nat) (w : Watch) : Option Span :=
  match w.ahead with
  | .found start stop =>
    if start = cursor ∧ cursor < stop then some ⟨cursor, stop, w.rule.kind⟩ else none
  | _ => none

/-- The span of the first rule that has one at the cursor, and the watches
after looking for it. Rules behind that one are not looked at. -/
def firstHit (before : Option Char) (cursor : Nat) (rest : List Char) :
    List Watch → Option Span × List Watch
  | [] => (none, [])
  | w :: ws =>
    let w := w.look before cursor rest
    match w.hit? cursor with
    | some s => (some s, w :: ws)
    | none =>
      let (s, ws) := firstHit before cursor rest ws
      (s, w :: ws)

/-- The spans of the rest of a line, which stands at `offset` after the
character `before`, when the cursor stands at or goes on to `cursor`. -/
def spansFrom (ws : List Watch) (cursor : Nat) (before : Option Char) (offset : Nat) :
    List Char → List Span
  | [] => []
  | c :: rest =>
    if offset < cursor then spansFrom ws cursor (some c) (offset + c.utf8Size) rest
    else
      match firstHit before offset (c :: rest) ws with
      | (some s, ws) => s :: spansFrom ws s.stop (some c) (offset + c.utf8Size) rest
      | (none, ws) => spansFrom ws offset (some c) (offset + c.utf8Size) rest

/-- The spans that rules give to a line. -/
def spans (rules : List Rule) (line : List Char) : List Span :=
  spansFrom (rules.map Watch.start) 0 none 0 line

end LineTint.Scan
