import LineTint.Proofs.Replay
import LineTint.Proofs.RuleFronts

/-!
# Where spans come from

A span gives byte offsets; `Span.left`, `Span.text` and `Span.right` are the three pieces of the
line that they cut. In a line that is no comment the text of every span is the token of its place
(`Highlighter.token?_of_mem_spans`), whatever the watches knew when the scan came there.
`Lexicon.Origin` says why a lexicon gives that token: the best front of one rule, and for a word
that the word rules of higher priority have none there.
-/

namespace LineTint
set_option autoImplicit false
open Text

namespace Span

variable (line : String) (s : Span)

/-- The line in front of a span. -/
def left : List Char :=
  (splitBytes s.start line.toList).1

/-- The line from the start of a span to its end. -/
def text : List Char :=
  (splitBytes (s.stop - s.start) (splitBytes s.start line.toList).2).1

/-- The line behind a span. -/
def right : List Char :=
  (splitBytes s.stop line.toList).2

/-- The three pieces at a token that stands at a place of the line. -/
theorem pieces_spanAt {line : String} {a m b : List Char} {k : TokenKind}
    (e : line.toList = a ++ (m ++ b)) :
    (Scan.spanAt (byteLength a) (k, m)).left line = a ∧
      (Scan.spanAt (byteLength a) (k, m)).text line = m ∧
      (Scan.spanAt (byteLength a) (k, m)).right line = b := by
  refine ⟨?_, ?_, ?_⟩
  · simp only [left, Scan.spanAt, e, splitBytes_byteLength]
  · simp only [text, Scan.spanAt, e, splitBytes_byteLength, Nat.add_sub_cancel_left]
  · simp only [right, Scan.spanAt, e, ← byteLength_append, ← List.append_assoc,
      splitBytes_byteLength]

end Span

/-- Every span of a scan is the token of a place that the scan has come to. -/
theorem Scan.Scanned.exists_token {rules : List Rule} {a rest : List Char} {ss : List Span}
    (h : Scanned rules a rest ss) {s : Span} (hs : s ∈ ss) :
    ∃ u m b, rest = u ++ (m ++ b) ∧ s = spanAt (byteLength (a ++ u)) (s.kind, m) ∧
      token? rules (lastOf none (a ++ u)) (m ++ b) = some (s.kind, m) := by
  induction h with
  | done => exact absurd hs (by simp)
  | @token a m rest k ss here later ih =>
    rcases List.mem_cons.1 hs with rfl | hs
    · exact ⟨[], m, rest, rfl, by rw [List.append_nil]; rfl, by rwa [List.append_nil]⟩
    · obtain ⟨u, n, b, rfl, place, found⟩ := ih hs
      rw [List.append_assoc] at place found
      exact ⟨m ++ u, n, b, by rw [List.append_assoc], place, found⟩
  | @skip a rest c ss here later ih =>
    obtain ⟨u, n, b, rfl, place, found⟩ := ih hs
    rw [List.append_assoc] at place found
    exact ⟨c :: u, n, b, rfl, place, found⟩

namespace Highlighter

variable {h : Highlighter} {line : String} {s : Span}

/-- **The text of a span** in a line that is no comment is the token of its place. -/
theorem token?_of_mem_spans (code : h.isComment line.toList = false) (hs : s ∈ h.spans line) :
    Scan.token? h.rules (s.left line).getLast? (s.text line ++ s.right line) =
      some (s.kind, s.text line) := by
  rw [spans_eq_scan code] at hs
  obtain ⟨a, m, b, e, place, found⟩ := (Scan.spans_scanned h.rules line.toList).exists_token hs
  rw [List.nil_append] at place found
  obtain ⟨left, text, right⟩ := Span.pieces_spanAt (k := s.kind) e
  rw [← place] at left text right
  rw [left, text, right, ← lastOf_none]
  exact found

/-- The token that stands at the front of a line is its first span. -/
theorem mem_spans_of_token? {k : TokenKind} {m b : List Char}
    (code : h.isComment line.toList = false) (e : line.toList = m ++ b)
    (here : Scan.token? h.rules none (m ++ b) = some (k, m)) :
    ⟨0, byteLength m, k⟩ ∈ h.spans line := by
  have scanned := Scan.spans_scanned h.rules line.toList
  rw [spans_eq_scan code]
  rw [e] at scanned ⊢
  obtain ⟨later, first, -⟩ := scanned.of_token here
  rw [first, Scan.spanAt, byteLength_nil, Nat.zero_add]
  exact List.mem_cons_self

end Highlighter

/-! ## Tokens of a lexicon -/

namespace Lexicon
open Pattern

/-- Why a lexicon, with a compiler for its number pattern, gives the text `m` of a kind as the token
of a place. -/
inductive Origin (compile : String → Option Pattern) (x : Lexicon) (before : Option Char)
    (rest m : List Char) : TokenKind → Prop where
  | string {p : Pattern} (rule : delimited? x.delimiters = some p)
      (best : p.front? before rest = some m) : Origin compile x before rest m .string
  | number {p : Pattern} (rule : compile x.numberPattern = some p)
      (best : p.front? before rest = some m) : Origin compile x before rest m .number
  | keyword {p : Pattern} (rule : wholeWord? x.keywords = some p)
      (best : p.front? before rest = some m) : Origin compile x before rest m .keyword
  | type {p : Pattern} (rule : wholeWord? x.types = some p)
      (best : p.front? before rest = some m)
      (noKeyword : tokenOf? .keyword (wholeWord? x.keywords) before rest = none) :
      Origin compile x before rest m .type
  | builtin {p : Pattern} (rule : wholeWord? x.builtins = some p)
      (best : p.front? before rest = some m)
      (noKeyword : tokenOf? .keyword (wholeWord? x.keywords) before rest = none)
      (noType : tokenOf? .type (wholeWord? x.types) before rest = none) :
      Origin compile x before rest m .builtin

/-- Every token has an origin, by the priority of the rules. -/
theorem origin_of_token? {compile : String → Option Pattern} {x : Lexicon} {before : Option Char}
    {rest m : List Char} {k : TokenKind}
    (h : Scan.token? (x.rulesWith compile) before rest = some (k, m)) :
    x.Origin compile before rest m k := by
  simp only [token?_rulesWith, Option.or_eq_some_iff] at h
  rcases h with h | ⟨-, h | ⟨-, h | ⟨noKeyword, h | ⟨noType, h⟩⟩⟩⟩
  all_goals obtain ⟨rfl, -, p, rule, best⟩ := tokenOf?_eq_some_iff.1 h
  · exact .string rule best
  · exact .number rule best
  · exact .keyword rule best
  · exact .type rule best noKeyword
  · exact .builtin rule best noKeyword noType

end Lexicon

namespace Highlighter

variable {compile : String → Option Pattern} {x : Lexicon} {line : String} {s : Span}

/-- A span is the whole of a comment line, or its text has an origin in the lexicon. -/
theorem origin_of_mem_spans (hs : s ∈ (ofLexiconWith compile x).spans line) :
    (ofLexiconWith compile x).isComment line.toList = true ∧
        s = ⟨0, line.utf8ByteSize, .comment⟩ ∨
      (ofLexiconWith compile x).isComment line.toList = false ∧
        x.Origin compile (s.left line).getLast? (s.text line ++ s.right line) (s.text line)
          s.kind := by
  cases comment : (ofLexiconWith compile x).isComment line.toList with
  | true =>
    rw [spans_eq_comment comment] at hs
    exact .inl ⟨rfl, List.mem_singleton.1 hs⟩
  | false =>
    exact .inr ⟨rfl, Lexicon.origin_of_token? (token?_of_mem_spans comment hs)⟩

/-- A span of another kind than comments has an origin. -/
theorem origin_of_kind {k : TokenKind} (hs : s ∈ (ofLexiconWith compile x).spans line)
    (kind : s.kind = k) (code : k ≠ .comment) :
    x.Origin compile (s.left line).getLast? (s.text line ++ s.right line) (s.text line) k := by
  subst kind
  rcases origin_of_mem_spans hs with ⟨-, rfl⟩ | ⟨-, origin⟩
  · exact absurd rfl code
  · exact origin

end Highlighter
end LineTint
