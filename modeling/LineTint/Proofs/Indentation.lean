import LineTint.Proofs.Classification
import LineTint.Proofs.Edges
import LineTint.Proofs.Numbers

/-!
# Indentation

Blanks around a line move its spans and change nothing else. In a lexicon whose delimiters and
words have no blanks at their ends (`Lexicon.Solid`, a check of the tables) no token begins at a
blank (`Solid.token?_eq_none`), and at every other place the token is the one it was
(`Solid.token?_append`). So a scan of the line is, moved, a scan of the line between blanks
(`Solid.scanned_between`), and a scan finds one list of spans.
-/

namespace LineTint
set_option autoImplicit false
open Pattern Text

/-- The span so many bytes further on. -/
def Span.shift (n : Nat) (s : Span) : Span :=
  ⟨n + s.start, n + s.stop, s.kind⟩

/-- Numbers are the usual ones, and what else a lexicon knows a line by has no blank at an end. -/
structure Lexicon.Solid (x : Lexicon) : Prop where
  numbers : x.numberPattern = defaultNumberPattern
  delimiters : ∀ d ∈ x.delimiters, isBlank d = false
  words : ∀ v ∈ x.words, SolidEnds v.toList
  comment : SolidEnds x.lineComment.toList

/-! ## The token of a place -/

namespace Lexicon

variable {x : Lexicon} {before before' : Option Char} {rest rest' w : List Char}

theorem tokenOf?_congr {k : TokenKind} {p : Option Pattern}
    (same : ∀ q, p = some q → q.front? before rest = q.front? before' rest') :
    tokenOf? k p before rest = tokenOf? k p before' rest' := by
  cases p with
  | none => rfl
  | some q => simp only [tokenOf?, Option.bind_some, Rule.token?, same q rfl]

variable (solid : x.Solid)
include solid

/-- **The token of a place** stays when blanks follow the line, and when the character before the
place is one that word boundaries cannot tell from it. -/
theorem Solid.token?_append (left : Alike before before') (blank : ∀ c ∈ w, isBlank c = true) :
    Scan.token? x.rules before (rest ++ w) = Scan.token? x.rules before' rest := by
  have string : tokenOf? .string (delimited? x.delimiters) before (rest ++ w) =
      tokenOf? .string (delimited? x.delimiters) before' rest := by
    refine tokenOf?_congr fun q hq => front?_delimited_append hq fun c hc mark => ?_
    exact absurd (blank c hc) (by simp [solid.delimiters c mark])
  have number : tokenOf? .number (read? x.numberPattern) before (rest ++ w) =
      tokenOf? .number (read? x.numberPattern) before' rest := by
    refine tokenOf?_congr fun q hq => ?_
    rw [solid.numbers, read?_defaultNumberPattern] at hq
    obtain rfl := Option.some.inj hq
    exact shuns_number.front?_append left blank
  have word : ∀ (ws : List String) {k : TokenKind}, (∀ v ∈ ws, v ∈ x.words) →
      tokenOf? k (wholeWord? ws) before (rest ++ w) = tokenOf? k (wholeWord? ws) before' rest := by
    intro ws k listed
    exact tokenOf?_congr fun q hq =>
      front?_wholeWord_append hq (fun v hv => solid.words v (listed v hv)) left blank
  rw [token?_rules, token?_rules, string, number]
  rw [word x.keywords, word x.types, word x.builtins]
  all_goals exact fun v hv => by simp [Lexicon.words, hv]

/-- No token begins at a blank. -/
theorem Solid.token?_eq_none {c : Char} (blank : isBlank c = true) :
    Scan.token? x.rules before (c :: rest) = none := by
  rw [Option.eq_none_iff_forall_ne_some]
  rintro ⟨k, m⟩ found
  obtain ⟨ne, t, ht⟩ := Scan.token?_spec found
  obtain ⟨d, m, rfl⟩ := List.exists_cons_of_ne_nil ne
  obtain ⟨rfl, -⟩ := List.cons.inj ht
  have solidFirst : isBlank d = false := by
    rcases token?_cases solid.numbers found with ⟨e, n, shape, mark⟩ | digits | ⟨v, hv, shape, -⟩
    · obtain ⟨rfl, -⟩ := List.cons.inj shape
      exact solid.delimiters d mark
    · exact isBlank_of_mem_number digits List.mem_cons_self
    · have first := (solid.words v hv).first
      rwa [shape] at first
  exact absurd blank (by simp [solidFirst])

/-! ## The scan -/

variable {a : List Char} {ss : List Span}

/-- A scan steps over blanks. -/
theorem Solid.scanned_blanks (blank : ∀ c ∈ w, isBlank c = true) :
    Scan.Scanned x.rules a (w ++ rest) ss ↔ Scan.Scanned x.rules (a ++ w) rest ss := by
  refine Scan.Scanned.append_iff fun u v e ne => ?_
  obtain ⟨c, v, rfl⟩ := List.exists_cons_of_ne_nil ne
  exact solid.token?_eq_none (blank c (by simp [e]))

/-- **A scan between blanks** finds the spans that the scan finds without them, moved by the blanks
in front. The induction is on the scan without them; it ends in front of the blanks behind. -/
theorem Solid.scanned_between {w₁ w₂ : List Char} (indent : ∀ c ∈ w₁, isBlank c = true)
    (trailing : ∀ c ∈ w₂, isBlank c = true) (h : Scan.Scanned x.rules a rest ss) :
    Scan.Scanned x.rules (w₁ ++ a) (rest ++ w₂) (ss.map (Span.shift (byteLength w₁))) := by
  have first : Alike (lastOf none w₁) none := by
    rw [lastOf_none, Alike]
    cases e : w₁.getLast? with
    | none => rfl
    | some c => exact isWord_of_isBlank (indent c (List.mem_of_getLast? e))
  have same : ∀ a rest, Scan.token? x.rules (lastOf none (w₁ ++ a)) (rest ++ w₂) =
      Scan.token? x.rules (lastOf none a) rest := by
    intro a rest
    rw [lastOf_append]
    exact solid.token?_append (first.lastOf a) trailing
  induction h with
  | done a =>
    have ends : Scan.Scanned x.rules (w₁ ++ a) (w₂ ++ []) [] :=
      (solid.scanned_blanks trailing).2 (.done _)
    rwa [List.append_nil] at ends
  | @token a m rest k ss here later ih =>
    have moved : (Scan.spanAt (byteLength a) (k, m)).shift (byteLength w₁) =
        Scan.spanAt (byteLength (w₁ ++ a)) (k, m) := by
      simp only [Span.shift, Scan.spanAt, byteLength_append, Nat.add_assoc]
    rw [List.map_cons, moved, List.append_assoc]
    rw [← List.append_assoc] at ih
    refine .token ?_ ih
    rw [← List.append_assoc, same, here]
  | @skip a rest c ss here later ih =>
    rw [← List.append_assoc] at ih
    exact .skip ((same a (c :: rest)).trans here) ih

/-! ## The line -/

/-- Blanks around a line do not make it a comment, nor keep it from being one. -/
theorem Solid.isComment_between {line w₁ w₂ : String} (indent : ∀ c ∈ w₁.toList, isBlank c = true)
    (trailing : ∀ c ∈ w₂.toList, isBlank c = true) :
    (Highlighter.ofLexicon x).isComment (w₁ ++ line ++ w₂).toList =
      (Highlighter.ofLexicon x).isComment line.toList := by
  have front : (w₁ ++ line ++ w₂).toList.dropWhile isBlank =
      (line.toList ++ w₂.toList).dropWhile isBlank := by
    rw [String.toList_append, String.toList_append, List.append_assoc,
      List.dropWhile_append_of_pos indent]
  have behind : x.lineComment.toList <+: (line.toList ++ w₂.toList).dropWhile isBlank ↔
      x.lineComment.toList <+: line.toList.dropWhile isBlank := by
    rw [List.dropWhile_append]
    split
    · rename_i blankLine
      rw [List.dropWhile_eq_nil_iff.2 trailing, List.isEmpty_iff.1 blankLine]
    · exact solid.comment.prefix_append_iff trailing
  rw [Bool.eq_iff_iff, Highlighter.ofLexicon, Highlighter.isComment_iff, Highlighter.isComment_iff,
    front, behind]

theorem Solid.spans_between {line w₁ w₂ : String} (indent : ∀ c ∈ w₁.toList, isBlank c = true)
    (trailing : ∀ c ∈ w₂.toList, isBlank c = true)
    (code : (Highlighter.ofLexicon x).isComment line.toList = false) :
    (Highlighter.ofLexicon x).spans (w₁ ++ line ++ w₂) =
      ((Highlighter.ofLexicon x).spans line).map (Span.shift w₁.utf8ByteSize) := by
  have whole := Scan.spans_scanned x.rules (w₁ ++ line ++ w₂).toList
  have inner := solid.scanned_between indent trailing (Scan.spans_scanned x.rules line.toList)
  rw [List.append_nil, byteLength_toList] at inner
  rw [String.toList_append, String.toList_append, List.append_assoc,
    solid.scanned_blanks indent] at whole
  rw [Highlighter.spans_eq_scan code,
    Highlighter.spans_eq_scan ((solid.isComment_between indent trailing).trans code)]
  simp only [String.toList_append, List.append_assoc]
  exact whole.unique inner

end Lexicon

/-! ## The languages -/

theorem Language.solid (l : Language) : l.lexicon.Solid where
  numbers := l.usual_numbers
  delimiters d mark := by rcases l.mem_delimiters.1 mark with rfl | rfl <;> decide
  words := by cases l <;> exact Lexicon.forall_words_of_tables rfl rfl rfl (by decide +kernel)
  comment := by cases l <;> decide

/-- **Indentation and trailing blanks** do not change the tokens of a line: a comment stays one
comment, with the blanks, and the spans of any other line move behind the indentation. -/
theorem Highlighter.spans_indent (l : Language) (line indent trailing : String)
    (blankIndent : ∀ c ∈ indent.toList, isBlank c = true)
    (blankTrailing : ∀ c ∈ trailing.toList, isBlank c = true) :
    (ofLanguage l).spans (indent ++ line ++ trailing) =
      if (ofLanguage l).isComment line.toList then
        [⟨0, (indent ++ line ++ trailing).utf8ByteSize, .comment⟩]
      else ((ofLanguage l).spans line).map (Span.shift indent.utf8ByteSize) := by
  split
  · rename_i comment
    exact spans_eq_comment ((l.solid.isComment_between blankIndent blankTrailing).trans comment)
  · rename_i code
    exact l.solid.spans_between blankIndent blankTrailing (Bool.eq_false_iff.2 code)

/-- A line of a file with CRLF line ends, behind a tab. -/
theorem Highlighter.number_mem_spans_indent :
    (∀ c ∈ "\t".toList, isBlank c = true) ∧ (∀ c ∈ "\r".toList, isBlank c = true) ∧
      ⟨0, 2, .number⟩ ∈ (ofLanguage .sql).spans "10;" ∧
      ⟨1, 3, .number⟩ ∈ (ofLanguage .sql).spans ("\t" ++ "10;" ++ "\r") := by
  have tab : ∀ c ∈ "\t".toList, isBlank c = true :=
    List.forall_mem_singleton.2 (by decide)
  have carriageReturn : ∀ c ∈ "\r".toList, isBlank c = true :=
    List.forall_mem_singleton.2 (by decide)
  have code : (ofLanguage .sql).isComment "10;".toList = false := by decide
  have mem : ⟨0, 2, .number⟩ ∈ (ofLanguage .sql).spans "10;" :=
    mem_spans_of_number (m := "10".toList) (b := [';']) code (by decide) (by decide)
  refine ⟨tab, carriageReturn, mem, ?_⟩
  rw [spans_indent .sql "10;" "\t" "\r" tab carriageReturn, if_neg (Bool.eq_false_iff.1 code)]
  exact List.mem_map_of_mem (f := Span.shift 1) mem

end LineTint
