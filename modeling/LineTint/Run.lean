import LineTint.Span
import LineTint.Text.Bytes
import LineTint.Theme

/-!
# Runs

A highlighted line is a list of runs: pieces of its text, each plain or of one
kind of token. `Run.ofSpans` cuts a line into runs along its spans, and the text
between two spans is one plain run. `flatMap_ofSpans` says that nothing of the
line is lost, whatever the spans are.
-/

namespace LineTint
set_option autoImplicit false

/-- A piece of text; without a kind it is plain. -/
structure Run where
  text : String
  kind : Option TokenKind
  deriving DecidableEq, Repr

namespace Run

/-- A newline between two lines. -/
def newline : Run := ⟨"\n", none⟩

/-- How a theme shows the run; `none` if it is plain. -/
def style? (t : Theme) (r : Run) : Option Style :=
  r.kind.map t.style

/-- A piece of plain text as a run, if it is not empty. -/
def ofPlain : List Char → List Run
  | [] => []
  | c :: cs => [⟨.ofList (c :: cs), none⟩]

/-- The runs of the text `rest` at `offset` of a line, along the spans in it. -/
def ofSpans (offset : Nat) (rest : List Char) : List Span → List Run
  | [] => ofPlain rest
  | s :: spans =>
    let (gap, rest) := Text.splitBytes (s.start - offset) rest
    let (text, rest) := Text.splitBytes (s.stop - s.start) rest
    ofPlain gap ++ ⟨.ofList text, some s.kind⟩ :: ofSpans s.stop rest spans

theorem flatMap_ofPlain (cs : List Char) : (ofPlain cs).flatMap (·.text.toList) = cs := by
  cases cs <;> simp [ofPlain]

theorem flatMap_ofSpans (offset : Nat) (rest : List Char) (spans : List Span) :
    (ofSpans offset rest spans).flatMap (·.text.toList) = rest := by
  induction spans generalizing offset rest with
  | nil => exact flatMap_ofPlain rest
  | cons s spans ih =>
    simp only [ofSpans, List.flatMap_append, List.flatMap_cons, flatMap_ofPlain, ih,
      String.toList_ofList, Text.splitBytes_fst_append_snd]

end Run
end LineTint
