import LineTint.Proofs.Lookahead
import LineTint.Highlighter

/-!
# A scan as a loop over byte offsets

Two readings of a scan that move a cursor from one byte offset of the whole line to another.
`plainFrom` searches every rule afresh at each cursor. `Loop` is the loop with its watches:
`turn` is one round, and a derivation of `Loop` is a loop that comes to its end. A scan
gives the spans of both (`Scanned.eq_plainFrom`, `Scanned.loop`).
-/

namespace LineTint
set_option autoImplicit false
open Text

/-- The leftmost match that begins at or after a byte offset of a line. There is none from the
end of the line on. -/
def Pattern.findAt? (p : Pattern) (line : List Char) (offset : Nat) : Option (Nat × Nat) :=
  let (front, rest) := splitBytes offset line
  if rest.isEmpty then none else p.find? front.getLast? offset rest

theorem Pattern.findAt?_append (p : Pattern) (a : List Char) {rest : List Char} (h : rest ≠ []) :
    p.findAt? (a ++ rest) (byteLength a) = p.find? (lastOf none a) (byteLength a) rest := by
  simp only [findAt?, splitBytes_byteLength, lastOf_none]
  rw [if_neg (by simpa using h)]

namespace Scan

/-- The width of the character at a byte offset of a line. -/
def widthAt (line : List Char) (offset : Nat) : Nat :=
  match (splitBytes offset line).2 with
  | [] => 1
  | c :: _ => c.utf8Size

theorem widthAt_append (a : List Char) (c : Char) (rest : List Char) :
    widthAt (a ++ c :: rest) (byteLength a) = c.utf8Size := by
  simp only [widthAt, splitBytes_byteLength]

theorem widthAt_pos (line : List Char) (offset : Nat) : 0 < widthAt line offset := by
  unfold widthAt
  split
  · omega
  · exact Char.utf8Size_pos _

/-- The span of the first rule that a fresh search from the cursor finds right there. -/
def plainHit? (rules : List Rule) (line : List Char) (cursor : Nat) : Option Span :=
  rules.findSome? fun r => hitAt? r.kind cursor (r.pattern.findAt? line cursor)

theorem lt_stop_of_plainHit? {rules : List Rule} {line : List Char} {cursor : Nat} {s : Span}
    (h : plainHit? rules line cursor = some s) : cursor < s.stop := by
  obtain ⟨r, _, hr⟩ := List.exists_of_findSome?_eq_some h
  unfold hitAt? at hr
  split at hr
  · split at hr
    · rename_i inside
      obtain rfl := Option.some.inj hr
      exact inside.2
    · exact absurd hr (by simp)
  · exact absurd hr (by simp)

/-- The spans from the cursor on, when every rule is searched afresh at each cursor. -/
def plainFrom (rules : List Rule) (line : List Char) (cursor : Nat) : List Span :=
  if cursor < byteLength line then
    match _h : plainHit? rules line cursor with
    | some s => s :: plainFrom rules line s.stop
    | none => plainFrom rules line (cursor + widthAt line cursor)
  else []
termination_by byteLength line - cursor
decreasing_by
  · have := lt_stop_of_plainHit? _h
    omega
  · have := widthAt_pos line cursor
    omega

theorem plainHit?_append (rules : List Rule) (a : List Char) {rest : List Char} (h : rest ≠ []) :
    plainHit? rules (a ++ rest) (byteLength a) =
      (token? rules (lastOf none a) rest).map (spanAt (byteLength a)) := by
  simp only [plainHit?, Pattern.findAt?_append _ a h, hitAt?_find?, token?, List.map_findSome?]
  rfl

/-- Searching afresh gives the spans of the scan. -/
theorem Scanned.eq_plainFrom {rules : List Rule} {a rest : List Char} {ss : List Span}
    (h : Scanned rules a rest ss) : plainFrom rules (a ++ rest) (byteLength a) = ss := by
  induction h with
  | done a => rw [plainFrom, if_neg (by simp)]
  | @token a m rest k ss here later ih =>
    obtain ⟨ne, -⟩ := token?_spec here
    have inside : byteLength a < byteLength (a ++ (m ++ rest)) := by
      have := byteLength_pos ne
      simp only [byteLength_append]
      omega
    have hit := plainHit?_append rules a (show m ++ rest ≠ [] by simp [ne])
    rw [here] at hit
    rw [List.append_assoc] at ih
    rw [plainFrom, if_pos inside]
    split
    · rename_i s found
      obtain rfl := Option.some.inj (hit.symm.trans found)
      rw [← ih, byteLength_append]
      rfl
    · rename_i found
      exact absurd (hit.symm.trans found) (by simp)
  | @skip a rest c ss here later ih =>
    have inside : byteLength a < byteLength (a ++ c :: rest) := by
      have := c.utf8Size_pos
      simp only [byteLength_append, byteLength_cons]
      omega
    have hit := plainHit?_append rules a (List.cons_ne_nil c rest)
    rw [here] at hit
    rw [List.append_assoc] at ih
    rw [plainFrom, if_pos inside]
    split
    · rename_i s found
      exact absurd (hit.symm.trans found) (by simp)
    · rw [← ih, widthAt_append, byteLength_append]
      rfl

end Scan

/-- A rule more, if it is there, has its kind before those of the others. -/
theorem sublist_kinds_cons (k : TokenKind) (p : Option Pattern) {rules : List (Option Rule)}
    {kinds : List TokenKind} (h : ((rules.filterMap id).map (·.kind)).Sublist kinds) :
    (((p.map (Rule.mk k) :: rules).filterMap id).map (·.kind)).Sublist (k :: kinds) := by
  cases p with
  | none => exact h.cons k
  | some p => exact h.cons_cons k

/-- The rules of a lexicon stand in the order of priority. -/
theorem Lexicon.sublist_kinds (compile : String → Option Pattern) (x : Lexicon) :
    ((x.rulesWith compile).map (·.kind)).Sublist [.string, .number, .keyword, .type, .builtin] :=
  sublist_kinds_cons _ _ <| sublist_kinds_cons _ _ <| sublist_kinds_cons _ _ <|
    sublist_kinds_cons _ _ <| sublist_kinds_cons _ _ List.Sublist.slnil

namespace Highlighter

theorem isComment_nil (h : Highlighter) : h.isComment [] = false := by
  by_cases e : h.lineComment = ""
  · simp [isComment, e]
  · obtain ⟨c, cs, hc⟩ := List.exists_cons_of_ne_nil (mt String.toList_eq_nil_iff.1 e)
    simp [isComment, dropBlanks, hc]

/-- A line that is no comment has the spans of its scan. -/
theorem spans_eq_scan {h : Highlighter} {line : String} (code : h.isComment line.toList = false) :
    h.spans line = Scan.spans h.rules line.toList := by
  cases e : line.toList with
  | nil =>
    simp only [Highlighter.spans, e]
    rfl
  | cons c cs =>
    rw [e] at code
    simp only [Highlighter.spans, e, code]
    rfl

theorem spans_eq_comment {h : Highlighter} {line : String}
    (comment : h.isComment line.toList = true) : h.spans line = [⟨0, line.utf8ByteSize, .comment⟩] := by
  rw [← byteLength_toList]
  cases e : line.toList with
  | nil =>
    rw [e, isComment_nil] at comment
    exact absurd comment (by simp)
  | cons c cs =>
    rw [e] at comment
    simp only [Highlighter.spans, e, comment]
    rfl

/-- A line that is no comment has the spans that come from searching every rule afresh at each
cursor, whatever the rules are. -/
theorem spans_eq_plain {h : Highlighter} {line : String} (code : h.isComment line.toList = false) :
    h.spans line = Scan.plainFrom h.rules line.toList 0 := by
  rw [spans_eq_scan code]
  exact (Scan.spans_scanned h.rules line.toList).eq_plainFrom.symm

/-- **Looking ahead changes nothing.** A line that is no comment has the spans that come from
searching every rule afresh at each cursor, by priority. The rules are those of any lexicon, and
`compile` is any reader of its number pattern. -/
theorem spans_eq_plainFrom (compile : String → Option Pattern) (x : Lexicon) (line : String)
    (code : (ofLexiconWith compile x).isComment line.toList = false) :
    (ofLexiconWith compile x).spans line =
        Scan.plainFrom (x.rulesWith compile) line.toList 0 ∧
      ((x.rulesWith compile).map (·.kind)).Sublist
        [.string, .number, .keyword, .type, .builtin] :=
  ⟨spans_eq_plain code, x.sublist_kinds compile⟩

/-- A number pattern that matches the empty text, and so at every place of the line, takes nothing
from the words and finds the number behind them. -/
theorem spans_eq_plainFrom_emptyNumber :
    let x : Lexicon := ⟨["val"], ["Int"], [], "//", ("/*", "*/"), ['"', '\''], "[0-9]*"⟩
    let line := "val x: Int = 7"
    (ofLexiconWith Pattern.read? x).isComment line.toList = false ∧
      Scan.plainFrom (x.rulesWith Pattern.read?) line.toList 0 =
        [⟨0, 3, .keyword⟩, ⟨7, 10, .type⟩, ⟨13, 14, .number⟩] := by
  intro x line
  have code : (ofLexiconWith Pattern.read? x).isComment line.toList = false := by decide
  have spans : (ofLexiconWith Pattern.read? x).spans line =
      [⟨0, 3, .keyword⟩, ⟨7, 10, .type⟩, ⟨13, 14, .number⟩] := by
    rw [ofLexiconWith, Lexicon.rulesWith, Pattern.wholeWord?_singleton (by decide),
      Pattern.wholeWord?_singleton (by decide), Pattern.wholeWord?_nil]
    decide +kernel
  exact ⟨code, (spans_eq_plainFrom Pattern.read? x line code).1.symm.trans spans⟩

end Highlighter

namespace Scan

/-! ## The loop with its watches -/

/-- The loop between two rounds: the watches, the cursor, and the spans found so far. -/
structure LoopState where
  watches : List Watch
  cursor : Nat
  found : List Span

/-- The loop before its first round. -/
def LoopState.start (rules : List Rule) : LoopState :=
  ⟨rules.map Watch.start, 0, []⟩

/-- One round: look at the cursor with the watches, and go on behind what is found there. -/
def LoopState.turn (line : List Char) (s : LoopState) : LoopState :=
  let (front, rest) := splitBytes s.cursor line
  match firstHit front.getLast? s.cursor rest s.watches with
  | (some span, ws) => ⟨ws, span.stop, s.found ++ [span]⟩
  | (none, ws) => ⟨ws, s.cursor + widthAt line s.cursor, s.found⟩

/-- The loop that goes on from one state comes to its end in another. -/
inductive Loop (line : List Char) : LoopState → LoopState → Prop where
  /-- The cursor is at the end of the line. -/
  | stop {s : LoopState} (atEnd : byteLength line ≤ s.cursor) : Loop line s s
  /-- One more round. -/
  | turn {s t : LoopState} (inside : s.cursor < byteLength line)
      (later : Loop line (s.turn line) t) : Loop line s t

/-- One round of the loop with watches that are right finds the token of the place. -/
theorem exists_turn {rules : List Rule} {a rest : List Char} {ws : List Watch} (found : List Span)
    (known : Knows rules (lastOf none a) (byteLength a) rest ws) :
    ∃ left, Knows rules (lastOf none a) (byteLength a) rest left ∧
      LoopState.turn (a ++ rest) ⟨ws, byteLength a, found⟩ =
        match token? rules (lastOf none a) rest with
        | some t => ⟨left, byteLength a + byteLength t.2, found ++ [spanAt (byteLength a) t]⟩
        | none => ⟨left, byteLength a + widthAt (a ++ rest) (byteLength a), found⟩ := by
  have hit := known.firstHit
  simp only [LoopState.turn, splitBytes_byteLength, ← lastOf_none]
  generalize firstHit (lastOf none a) (byteLength a) rest ws = looked at hit ⊢
  obtain ⟨span, left⟩ := looked
  obtain ⟨rfl, after⟩ := hit
  refine ⟨left, after, ?_⟩
  cases token? rules (lastOf none a) rest <;> rfl

/-- The loop comes to its end with the spans of the scan. -/
theorem Scanned.loop {rules : List Rule} {a rest : List Char} {ss : List Span}
    (h : Scanned rules a rest ss) {ws : List Watch} (found : List Span)
    (known : Knows rules (lastOf none a) (byteLength a) rest ws) :
    ∃ t, Loop (a ++ rest) ⟨ws, byteLength a, found⟩ t ∧ t.cursor = byteLength (a ++ rest) ∧
      t.found = found ++ ss := by
  induction h generalizing ws found with
  | done a => exact ⟨⟨ws, byteLength a, found⟩, .stop (by simp), by simp, by simp⟩
  | @token a m rest k ss here later ih =>
    obtain ⟨ne, -⟩ := token?_spec here
    have inside : byteLength a < byteLength (a ++ (m ++ rest)) := by
      have := byteLength_pos ne
      simp only [byteLength_append]
      omega
    obtain ⟨left, after, turn⟩ := exists_turn found known
    rw [here] at turn
    have behind : Knows rules (lastOf none (a ++ m)) (byteLength (a ++ m)) rest left := by
      rw [lastOf_append, byteLength_append]
      exact after.skip
    obtain ⟨t, run, cursor, spans⟩ := ih (found ++ [spanAt (byteLength a) (k, m)]) behind
    rw [List.append_assoc, byteLength_append] at run
    rw [List.append_assoc] at cursor
    exact ⟨t, .turn inside (turn ▸ run), cursor, by rw [spans, List.append_assoc]; rfl⟩
  | @skip a rest c ss here later ih =>
    have inside : byteLength a < byteLength (a ++ c :: rest) := by
      have := c.utf8Size_pos
      simp only [byteLength_append, byteLength_cons]
      omega
    obtain ⟨left, after, turn⟩ := exists_turn found known
    rw [here, widthAt_append] at turn
    have behind : Knows rules (lastOf none (a ++ [c])) (byteLength (a ++ [c])) rest left := by
      rw [lastOf_append, byteLength_append]
      exact after.skip (a := [c])
    obtain ⟨t, run, cursor, spans⟩ := ih found behind
    rw [List.append_assoc, byteLength_append] at run
    rw [List.append_assoc] at cursor
    exact ⟨t, .turn inside (turn ▸ run), cursor, spans⟩

end Scan
end LineTint
