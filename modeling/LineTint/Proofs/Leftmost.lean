import LineTint.Proofs.CursorLoop

/-!
# The leftmost match from an offset

`Pattern.findFrom?` searches a line from any byte offset on, and `Pattern.FindsLeftmost` says of a
set of matches that the search finds the one with the smallest start, and nothing where there is
none. The best matches of a pattern that has no match at the end of a line are found so
(`Pattern.findsLeftmost`).
-/

namespace LineTint
set_option autoImplicit false
open Text

/-! ## Places of a line by their offsets -/

namespace Text

/-- A line cut at its first place that is not before a byte offset. -/
def cutFrom : Nat → List Char → List Char × List Char
  | 0, cs => ([], cs)
  | _ + 1, [] => ([], [])
  | n + 1, c :: rest =>
    let (front, back) := cutFrom (n + 1 - c.utf8Size) rest
    (c :: front, back)

/-- The cut is at or behind the offset, unless the line ends before it, and no later place of the
line is in front of the cut. -/
theorem exists_cutFrom (n : Nat) (line : List Char) :
    ∃ front back, cutFrom n line = (front, back) ∧ line = front ++ back ∧
      (n ≤ byteLength front ∨ back = []) ∧
      ∀ a b, line = a ++ b → n ≤ byteLength a → ∃ u, a = front ++ u ∧ back = u ++ b := by
  induction line generalizing n with
  | nil =>
    refine ⟨[], [], by cases n <;> rfl, rfl, .inr rfl, fun a b e _ => ?_⟩
    exact ⟨a, rfl, e⟩
  | cons c rest ih =>
    cases n with
    | zero => exact ⟨[], c :: rest, rfl, rfl, .inl (Nat.zero_le _), fun a b e _ => ⟨a, rfl, e⟩⟩
    | succ n =>
      obtain ⟨front, back, cut, rfl, far, later⟩ := ih (n + 1 - c.utf8Size)
      refine ⟨c :: front, back, by rw [cutFrom, cut], rfl, far.imp_left fun h => ?_,
        fun a b e ahead => ?_⟩
      · rw [byteLength_cons]
        omega
      · cases a with
        | nil => exact absurd ahead (by simp)
        | cons d a =>
          obtain ⟨rfl, tail⟩ := List.cons.inj e
          rw [byteLength_cons] at ahead
          obtain ⟨u, rfl, behind⟩ := later a b tail (by omega)
          exact ⟨u, rfl, behind⟩

/-- Two cuts of a line at one offset are the same. -/
theorem eq_of_byteLength_eq {a b a' b' : List Char} (e : a ++ b = a' ++ b')
    (offset : byteLength a = byteLength a') : a = a' ∧ b = b' := by
  have cut := splitBytes_byteLength a b
  rw [e, offset, splitBytes_byteLength] at cut
  exact ⟨congrArg Prod.fst cut.symm, congrArg Prod.snd cut.symm⟩

end Text

namespace Pattern

variable {p q : Pattern} {line : List Char}

/-- The leftmost match that begins at or after any byte offset of a line. From inside a
character the search goes on to the place behind it. -/
def findFrom? (p : Pattern) (line : List Char) (offset : Nat) : Option (Nat × Nat) :=
  p.findAt? line (byteLength (cutFrom offset line).1)

/-- The best text of the pattern at a byte offset of the line ends at another. -/
def MatchAt (p : Pattern) (line : List Char) (start stop : Nat) : Prop :=
  ∃ a b m, line = a ++ b ∧ byteLength a = start ∧ p.front? (lastOf none a) b = some m ∧
    stop = start + byteLength m

/-- A search from any offset of the line gives the first of the matches `M` from there on. -/
structure FindsLeftmost (p : Pattern) (line : List Char) (M : Nat → Nat → Prop) : Prop where
  /-- What begins at an offset is found there. -/
  here_iff : ∀ start stop, p.findFrom? line start = some (start, stop) ↔ M start stop
  /-- What is found is the match with the smallest start. -/
  eq_some_iff : ∀ offset start stop, p.findFrom? line offset = some (start, stop) ↔
    offset ≤ start ∧ M start stop ∧ ∀ k, offset ≤ k → k < start → ∀ e, ¬M k e
  /-- Nothing is found where there is no match. -/
  eq_none_iff : ∀ offset, p.findFrom? line offset = none ↔ ∀ k, offset ≤ k → ∀ e, ¬M k e

theorem FindsLeftmost.congr {M N : Nat → Nat → Prop} (h : p.FindsLeftmost line M)
    (same : ∀ start stop, M start stop ↔ N start stop) : p.FindsLeftmost line N := by
  obtain rfl : M = N := funext fun start => funext fun stop => propext (same start stop)
  exact h

section Search

variable (ends : ∀ before, p.front? before [] = none)
include ends

/-- The search from an offset is the one from the first place that is not in front of it. -/
theorem exists_findFrom? (offset : Nat) (line : List Char) :
    ∃ front back, p.findFrom? line offset = p.find? (lastOf none front) (byteLength front) back ∧
      line = front ++ back ∧ (offset ≤ byteLength front ∨ back = []) ∧
      ∀ a b, line = a ++ b → offset ≤ byteLength a → ∃ u, a = front ++ u ∧ back = u ++ b := by
  obtain ⟨front, back, cut, rfl, far, later⟩ := exists_cutFrom offset line
  refine ⟨front, back, ?_, rfl, far, later⟩
  rw [findFrom?, cut]
  by_cases nil : back = []
  · rw [nil, findAt?, splitBytes_byteLength, find?, matchLength?_eq_front?, ends]
    rfl
  · exact findAt?_append p front nil

theorem ne_nil_of_front? {before : Option Char} {text m : List Char}
    (here : p.front? before text = some m) : text ≠ [] := by
  rintro rfl
  exact absurd ((ends before).symm.trans here) (by simp)

theorem findFrom?_eq_none_iff (offset : Nat) (line : List Char) :
    p.findFrom? line offset = none ↔ ∀ k, offset ≤ k → ∀ e, ¬p.MatchAt line k e := by
  obtain ⟨front, back, search, rfl, far, later⟩ := exists_findFrom? ends offset line
  rw [search, find?_eq_none_iff]
  constructor
  · rintro none _ ahead e ⟨a, b, m, cut, rfl, here, -⟩
    obtain ⟨u, rfl, rfl⟩ := later a b cut ahead
    rw [lastOf_append, none u b rfl] at here
    exact absurd here (by simp)
  · rintro none a b rfl
    by_contra some
    obtain ⟨m, here⟩ := Option.ne_none_iff_exists'.1 some
    have inside := far.resolve_right fun nil =>
      ne_nil_of_front? ends here (List.append_eq_nil_iff.1 nil).2
    refine none (byteLength (front ++ a)) ?_ _
      ⟨front ++ a, b, m, (List.append_assoc ..).symm, rfl, ?_, rfl⟩
    · rw [byteLength_append]
      omega
    · rw [lastOf_append, here]

theorem findFrom?_eq_some_iff (offset : Nat) (line : List Char) (start stop : Nat) :
    p.findFrom? line offset = some (start, stop) ↔
      offset ≤ start ∧ p.MatchAt line start stop ∧
        ∀ k, offset ≤ k → k < start → ∀ e, ¬p.MatchAt line k e := by
  obtain ⟨front, back, search, rfl, far, later⟩ := exists_findFrom? ends offset line
  rw [search, find?_eq_some_iff]
  constructor
  · rintro ⟨a, b, m, rfl, rfl, rfl, best, first⟩
    have inside := far.resolve_right fun nil =>
      ne_nil_of_front? ends best (List.append_eq_nil_iff.1 nil).2
    refine ⟨by omega, ⟨front ++ a, b, m, (List.append_assoc ..).symm, byteLength_append front a,
      by rwa [lastOf_append], rfl⟩, ?_⟩
    rintro _ ahead before e ⟨a', b', m', cut, rfl, here, -⟩
    obtain ⟨u, rfl, split⟩ := later a' b' cut ahead
    rw [byteLength_append] at before
    rcases List.append_eq_append_iff.1 split with ⟨v, rfl, -⟩ | ⟨v, rfl, rfl⟩
    · rw [byteLength_append] at before
      omega
    · have ne : v ≠ [] := by
        rintro rfl
        simp at before
      rw [lastOf_append, first u v rfl ne] at here
      exact absurd here (by simp)
  · rintro ⟨ahead, ⟨a, b, m, cut, rfl, here, rfl⟩, first⟩
    obtain ⟨u, rfl, rfl⟩ := later a b cut ahead
    have inside := far.resolve_right fun nil =>
      ne_nil_of_front? ends here (List.append_eq_nil_iff.1 nil).2
    refine ⟨u, b, m, rfl, byteLength_append front u, rfl, by rwa [lastOf_append] at here, ?_⟩
    rintro v w rfl ne
    by_contra some
    obtain ⟨n, earlier⟩ := Option.ne_none_iff_exists'.1 some
    have width := byteLength_pos ne
    refine first (byteLength (front ++ v)) ?_ ?_ _
      ⟨front ++ v, w ++ b, n, by simp, rfl, by rw [lastOf_append, earlier], rfl⟩
    · rw [byteLength_append]
      omega
    · simp only [byteLength_append]
      omega

/-- **The search of a pattern** that matches nowhere at the end of a line goes to the first place
with a match, and takes the best match there. -/
theorem findsLeftmost (line : List Char) : p.FindsLeftmost line (p.MatchAt line) where
  here_iff start stop := by
    rw [findFrom?_eq_some_iff ends]
    constructor
    · rintro ⟨-, here, -⟩
      exact here
    · intro here
      exact ⟨Nat.le_refl start, here, fun k ahead before => absurd before (by omega)⟩
  eq_some_iff offset start stop := findFrom?_eq_some_iff ends offset line start stop
  eq_none_iff offset := findFrom?_eq_none_iff ends offset line

end Search

end Pattern
end LineTint
