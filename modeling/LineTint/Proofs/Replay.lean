import LineTint.Proofs.CursorLoop
import Mathlib.Data.List.Chain

/-!
# Spans and runs

The spans of a line cut it into pieces, none of them empty, with gaps between them (`Cut`). So
they lie inside the line, one after the other, between whole characters (`Cut.wellFormed`), and
the runs of the line are those pieces and the gaps that are not empty (`Cut.ofSpans`), from
which `Run.spans` reads the spans back.
-/

namespace LineTint
set_option autoImplicit false
open Text

/-- Spans that cut the text at an offset of a line into gaps and pieces that are not empty. -/
inductive Cut : Nat → List Char → List Span → Prop where
  /-- All that is left is a gap. -/
  | gap (offset : Nat) (rest : List Char) : Cut offset rest []
  /-- A piece stands behind a gap. -/
  | piece {offset : Nat} {gap m rest : List Char} {k : TokenKind} {ss : List Span} (ne : m ≠ [])
      (later : Cut (offset + byteLength gap + byteLength m) rest ss) :
      Cut offset (gap ++ (m ++ rest))
        (⟨offset + byteLength gap, offset + byteLength gap + byteLength m, k⟩ :: ss)

/-- A gap may be longer at its front. -/
theorem Cut.cons {offset : Nat} {c : Char} {rest : List Char} {ss : List Span}
    (h : Cut (offset + c.utf8Size) rest ss) : Cut offset (c :: rest) ss := by
  cases h with
  | gap => exact .gap offset (c :: rest)
  | @piece _ gap m rest k ss ne later =>
    have e : offset + c.utf8Size + byteLength gap = offset + byteLength (c :: gap) := by
      rw [byteLength_cons]
      omega
    rw [e] at later ⊢
    exact @Cut.piece offset (c :: gap) m rest k ss ne later

theorem Scan.Scanned.cut {rules : List Rule} {a rest : List Char} {ss : List Span}
    (h : Scan.Scanned rules a rest ss) : Cut (byteLength a) rest ss := by
  induction h with
  | done a => exact .gap _ _
  | @token a m rest k ss here later ih =>
    rw [byteLength_append] at ih
    exact @Cut.piece (byteLength a) [] m rest k ss (Scan.token?_spec here).1 ih
  | @skip a rest c ss here later ih =>
    rw [byteLength_append] at ih
    exact Cut.cons (by simpa using ih)

namespace Highlighter

/-- The spans of a line cut it. -/
theorem cut_spans (h : Highlighter) (line : String) : Cut 0 line.toList (h.spans line) := by
  cases e : h.isComment line.toList with
  | false =>
    rw [spans_eq_scan e]
    exact (Scan.spans_scanned h.rules line.toList).cut
  | true =>
    have ne : line.toList ≠ [] := by
      intro nil
      rw [nil, isComment_nil] at e
      exact absurd e (by simp)
    have whole := @Cut.piece 0 [] line.toList [] .comment [] ne (.gap _ [])
    rw [spans_eq_comment e, ← byteLength_toList]
    simpa using whole

end Highlighter

/-! ## Well-formed spans -/

/-- Spans of a line that can be cut out of it one after the other. -/
structure Span.WellFormed (line : String) (ss : List Span) : Prop where
  nonempty : ∀ s ∈ ss, s.start < s.stop
  inside : ∀ s ∈ ss, s.stop ≤ line.utf8ByteSize
  ordered : ss.Pairwise fun s t => s.stop ≤ t.start
  startValid : ∀ s ∈ ss, (⟨s.start⟩ : String.Pos.Raw).IsValid line
  stopValid : ∀ s ∈ ss, (⟨s.stop⟩ : String.Pos.Raw).IsValid line

/-- A place of a line lies between whole characters of its UTF-8 form. -/
theorem isValid_byteLength {a b : List Char} {line : String} (h : line.toList = a ++ b) :
    (⟨byteLength a⟩ : String.Pos.Raw).IsValid line := by
  refine String.Pos.Raw.isValid_iff_exists_append.2 ⟨.ofList a, .ofList b, ?_, ?_⟩
  · rw [← String.ofList_append, ← h, String.ofList_toList]
  · rw [← String.toList_ofList (l := a), byteLength_toList, String.toList_ofList]
    rfl

/-- Each piece begins and ends at a place of the text. -/
theorem Cut.exists_of_mem {offset : Nat} {rest : List Char} {ss : List Span}
    (h : Cut offset rest ss) {s : Span} (hs : s ∈ ss) :
    ∃ a m b, rest = a ++ (m ++ b) ∧ m ≠ [] ∧ s.start = offset + byteLength a ∧
      s.stop = s.start + byteLength m := by
  induction h with
  | gap => exact absurd hs (by simp)
  | @piece offset gap m rest k ss ne later ih =>
    rcases List.mem_cons.1 hs with rfl | hs
    · exact ⟨gap, m, rest, rfl, ne, rfl, rfl⟩
    · obtain ⟨a, n, b, rfl, ne', start, stop⟩ := ih hs
      refine ⟨gap ++ (m ++ a), n, b, by simp, ne', ?_, stop⟩
      rw [start]
      simp only [byteLength_append]
      omega

theorem Cut.ordered {offset : Nat} {rest : List Char} {ss : List Span}
    (h : Cut offset rest ss) : ss.Pairwise fun s t => s.stop ≤ t.start := by
  induction h with
  | gap => exact .nil
  | @piece offset gap m rest k ss ne later ih =>
    refine List.pairwise_cons.2 ⟨fun s hs => ?_, ih⟩
    obtain ⟨a, n, b, -, -, start, -⟩ := later.exists_of_mem hs
    simp only [start]
    omega

theorem Cut.wellFormed {line : String} {ss : List Span} (h : Cut 0 line.toList ss) :
    Span.WellFormed line ss where
  nonempty s hs := by
    obtain ⟨a, m, b, -, ne, -, stop⟩ := h.exists_of_mem hs
    have := byteLength_pos ne
    omega
  inside s hs := by
    obtain ⟨a, m, b, e, -, start, stop⟩ := h.exists_of_mem hs
    rw [stop, start, ← byteLength_toList, e]
    simp only [byteLength_append]
    omega
  ordered := h.ordered
  startValid s hs := by
    obtain ⟨a, m, b, e, -, start, -⟩ := h.exists_of_mem hs
    rw [start, Nat.zero_add]
    exact isValid_byteLength e
  stopValid s hs := by
    obtain ⟨a, m, b, e, -, start, stop⟩ := h.exists_of_mem hs
    rw [stop, start, Nat.zero_add, ← byteLength_append]
    exact isValid_byteLength (by rw [e, List.append_assoc])

/-! ## Runs -/

/-- The spans of the runs that have a kind, when the first run begins at the offset. -/
def Run.spans (offset : Nat) : List Run → List Span
  | [] => []
  | r :: rs =>
    let stop := offset + r.text.utf8ByteSize
    match r.kind with
    | some k => ⟨offset, stop, k⟩ :: Run.spans stop rs
    | none => Run.spans stop rs

theorem ofSpans_piece (offset : Nat) (gap m rest : List Char) (k : TokenKind) (ss : List Span) :
    Run.ofSpans offset (gap ++ (m ++ rest))
        (⟨offset + byteLength gap, offset + byteLength gap + byteLength m, k⟩ :: ss) =
      Run.ofPlain gap ++ ⟨.ofList m, some k⟩ ::
        Run.ofSpans (offset + byteLength gap + byteLength m) rest ss := by
  simp only [Run.ofSpans, Nat.add_sub_cancel_left, splitBytes_byteLength]

theorem spans_ofPlain_append (offset : Nat) (gap : List Char) (rs : List Run) :
    Run.spans offset (Run.ofPlain gap ++ rs) = Run.spans (offset + byteLength gap) rs := by
  cases gap with
  | nil => rfl
  | cons c gap =>
    simp only [Run.ofPlain, List.cons_append, List.nil_append, Run.spans, ← byteLength_toList,
      String.toList_ofList]

/-- Reading the runs back gives the spans they were cut along. -/
theorem Cut.spans_ofSpans {offset : Nat} {rest : List Char} {ss : List Span}
    (h : Cut offset rest ss) : Run.spans offset (Run.ofSpans offset rest ss) = ss := by
  induction h with
  | gap offset rest =>
    have := spans_ofPlain_append offset rest []
    rwa [List.append_nil] at this
  | @piece offset gap m rest k ss ne later ih =>
    rw [ofSpans_piece, spans_ofPlain_append]
    simp only [Run.spans, ← byteLength_toList, String.toList_ofList, ih]

theorem text_ne_of_mem_ofPlain {gap : List Char} {r : Run} (h : r ∈ Run.ofPlain gap) :
    r.text ≠ "" := by
  cases gap with
  | nil => exact absurd h (by simp [Run.ofPlain])
  | cons c gap =>
    obtain rfl := List.mem_singleton.1 h
    simp

theorem Cut.text_ne {offset : Nat} {rest : List Char} {ss : List Span} (h : Cut offset rest ss)
    {r : Run} (hr : r ∈ Run.ofSpans offset rest ss) : r.text ≠ "" := by
  induction h with
  | gap => exact text_ne_of_mem_ofPlain hr
  | @piece offset gap m rest k ss ne later ih =>
    rw [ofSpans_piece] at hr
    rcases List.mem_append.1 hr with hr | hr
    · exact text_ne_of_mem_ofPlain hr
    · rcases List.mem_cons.1 hr with rfl | hr
      · simpa using ne
      · exact ih hr

/-- Of two runs side by side one has a kind. -/
theorem Cut.isChain {offset : Nat} {rest : List Char} {ss : List Span} (h : Cut offset rest ss) :
    (Run.ofSpans offset rest ss).IsChain fun r s => r.kind.isSome ∨ s.kind.isSome := by
  induction h with
  | gap offset rest => cases rest <;> simp [Run.ofSpans, Run.ofPlain]
  | @piece offset gap m rest k ss ne later ih =>
    rw [ofSpans_piece]
    generalize Run.ofSpans _ rest ss = rs at ih ⊢
    have piece : ((⟨.ofList m, some k⟩ : Run) :: rs).IsChain
        fun r s => r.kind.isSome ∨ s.kind.isSome :=
      List.isChain_cons.2 ⟨fun _ _ => .inl rfl, ih⟩
    cases gap with
    | nil => exact piece
    | cons c gap => exact .cons_cons (.inr rfl) piece

/-- **Spans are well formed and runs are their replay.** The loop over a line that is no comment
comes to its end with the spans of the line; the spans can be cut out of the line one after the
other; and the runs read back as the spans, with no two plain ones side by side. -/
theorem Highlighter.spans_wellFormed_runs_replay (h : Highlighter) (line : String) :
    (if h.isComment line.toList then h.spans line = [⟨0, line.utf8ByteSize, .comment⟩]
      else ∃ t, Scan.Loop line.toList (.start h.rules) t ∧ t.found = h.spans line) ∧
    Span.WellFormed line (h.spans line) ∧
    Run.spans 0 (h.runs line) = h.spans line ∧
    (h.runs line).IsChain fun r s => r.kind.isSome ∨ s.kind.isSome := by
  have cut := h.cut_spans line
  refine ⟨?_, cut.wellFormed, cut.spans_ofSpans, cut.isChain⟩
  split
  · rename_i comment
    exact spans_eq_comment comment
  · rename_i code
    rw [spans_eq_scan (by simpa using code)]
    obtain ⟨t, loop, -, found⟩ := (Scan.spans_scanned h.rules line.toList).loop []
      (Scan.knows_start h.rules none 0 line.toList)
    exact ⟨t, loop, found⟩

end LineTint
