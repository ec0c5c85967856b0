import LineTint.Proofs.Search
import LineTint.Scan

/-!
# What a scan finds

`Scan.token?` is the token that the rules give at a place: the best front of the first rule
that has one there and is not empty. `Scanned rules a rest ss` says that the scan that has come
behind `a` finds the spans `ss` in `rest`: at each place it takes the token and goes on behind
it, or goes on behind the next character if there is none. It speaks of places, not of offsets,
and of no search ahead; every law of the spans is by induction on it.
-/

namespace LineTint
set_option autoImplicit false
open Text

/-- The token of a rule at a place; an empty text is none. -/
def Rule.token? (r : Rule) (before : Option Char) (rest : List Char) :
    Option (TokenKind × List Char) :=
  match r.pattern.front? before rest with
  | some (c :: m) => some (r.kind, c :: m)
  | _ => none

theorem Rule.token?_eq_some_iff {r : Rule} {before : Option Char} {rest m : List Char}
    {k : TokenKind} :
    r.token? before rest = some (k, m) ↔
      k = r.kind ∧ r.pattern.front? before rest = some m ∧ m ≠ [] := by
  simp only [Rule.token?]
  split
  · rename_i c a h
    rw [h]
    simp only [Option.some.injEq, Prod.mk.injEq]
    constructor
    · rintro ⟨rfl, rfl⟩
      exact ⟨rfl, rfl, List.cons_ne_nil c a⟩
    · rintro ⟨rfl, rfl, -⟩
      exact ⟨rfl, rfl⟩
  · rename_i h
    constructor
    · intro e
      exact absurd e (by simp)
    · rintro ⟨-, e, ne⟩
      obtain ⟨c, a, rfl⟩ := List.exists_cons_of_ne_nil ne
      exact absurd e (h c a)

namespace Scan

/-- The token that the rules give at a place, from the first rule that has one. -/
def token? (rules : List Rule) (before : Option Char) (rest : List Char) :
    Option (TokenKind × List Char) :=
  rules.findSome? fun r => r.token? before rest

/-- The span of a token at an offset. -/
def spanAt (offset : Nat) (t : TokenKind × List Char) : Span :=
  ⟨offset, offset + byteLength t.2, t.1⟩

/-- The span of a match that a search from `offset` has found, if it begins there and is not
empty. -/
def hitAt? (k : TokenKind) (offset : Nat) : Option (Nat × Nat) → Option Span
  | some (start, stop) => if start = offset ∧ offset < stop then some ⟨offset, stop, k⟩ else none
  | none => none

/-- A search from a place hits there exactly the token of the place. -/
theorem hitAt?_find? (r : Rule) (before : Option Char) (offset : Nat) (rest : List Char) :
    hitAt? r.kind offset (r.pattern.find? before offset rest) =
      (r.token? before rest).map (spanAt offset) := by
  cases here : r.pattern.front? before rest with
  | some a =>
    have found : r.pattern.find? before offset rest = some (offset, offset + byteLength a) :=
      Pattern.find?_here.2 ⟨a, here, rfl⟩
    cases a with
    | nil => simp [found, hitAt?, Rule.token?, here]
    | cons c m =>
      have := byteLength_pos (List.cons_ne_nil c m)
      simp only [found, hitAt?, Rule.token?, here, spanAt, Option.map_some, true_and]
      rw [if_pos (by omega)]
  | none =>
    simp only [Rule.token?, here, Option.map_none]
    cases found : r.pattern.find? before offset rest with
    | none => rfl
    | some t =>
      obtain ⟨start, stop⟩ := t
      simp only [hitAt?]
      rw [if_neg]
      rintro ⟨rfl, -⟩
      obtain ⟨a, ha, -⟩ := Pattern.find?_here.1 found
      rw [here] at ha
      exact absurd ha (by simp)

theorem token?_spec {rules : List Rule} {before : Option Char} {rest m : List Char}
    {k : TokenKind} (h : token? rules before rest = some (k, m)) : m ≠ [] ∧ m <+: rest := by
  obtain ⟨r, _, hr⟩ := List.exists_of_findSome?_eq_some h
  obtain ⟨-, front, ne⟩ := Rule.token?_eq_some_iff.1 hr
  exact ⟨ne, Pattern.prefix_of_front? front⟩

/-- The scan that has come behind `a` finds these spans in the rest of the line. -/
inductive Scanned (rules : List Rule) : List Char → List Char → List Span → Prop where
  /-- The line ends. -/
  | done (a : List Char) : Scanned rules a [] []
  /-- A token stands at the place. -/
  | token {a m rest : List Char} {k : TokenKind} {ss : List Span}
      (here : token? rules (lastOf none a) (m ++ rest) = some (k, m))
      (later : Scanned rules (a ++ m) rest ss) :
      Scanned rules a (m ++ rest) (spanAt (byteLength a) (k, m) :: ss)
  /-- No token stands at the place. -/
  | skip {a rest : List Char} {c : Char} {ss : List Span}
      (here : token? rules (lastOf none a) (c :: rest) = none)
      (later : Scanned rules (a ++ [c]) rest ss) : Scanned rules a (c :: rest) ss

section Scanned

variable {rules : List Rule} {a rest : List Char} {ss : List Span}

theorem Scanned.of_token {m : List Char} {k : TokenKind} (h : Scanned rules a (m ++ rest) ss)
    (here : token? rules (lastOf none a) (m ++ rest) = some (k, m)) :
    ∃ later, ss = spanAt (byteLength a) (k, m) :: later ∧ Scanned rules (a ++ m) rest later := by
  generalize e : m ++ rest = text at h here
  cases h with
  | done =>
    obtain ⟨rfl, -⟩ := List.append_eq_nil_iff.1 e
    exact absurd rfl (token?_spec here).1
  | @token _ n rest' k' later here' tail =>
    obtain ⟨rfl, rfl⟩ := Prod.mk.inj (Option.some.inj (here.symm.trans here'))
    obtain rfl := List.append_cancel_left e
    exact ⟨later, rfl, tail⟩
  | skip here' => exact absurd (here.symm.trans here') (by simp)

theorem Scanned.of_none {c : Char} (h : Scanned rules a (c :: rest) ss)
    (here : token? rules (lastOf none a) (c :: rest) = none) :
    Scanned rules (a ++ [c]) rest ss := by
  generalize e : c :: rest = text at h here
  cases h with
  | done => exact absurd e (List.cons_ne_nil c rest)
  | token here' => exact absurd (here.symm.trans here') (by simp)
  | skip _ tail =>
    obtain ⟨rfl, rfl⟩ := List.cons.inj e
    exact tail

/-- A scan finds one list of spans. -/
theorem Scanned.unique {ss' : List Span} (h : Scanned rules a rest ss)
    (h' : Scanned rules a rest ss') : ss = ss' := by
  induction h generalizing ss' with
  | done a =>
    generalize e : [] = rest at h'
    cases h' with
    | done => rfl
    | token here =>
      obtain ⟨rfl, -⟩ := List.append_eq_nil_iff.1 e.symm
      exact absurd rfl (token?_spec here).1
    | skip => exact absurd e.symm (List.cons_ne_nil _ _)
  | token here later ih =>
    obtain ⟨tail, rfl, scanned⟩ := h'.of_token here
    rw [ih scanned]
  | skip here later ih => exact ih (h'.of_none here)

/-- A scan steps over a text in which no token begins. -/
theorem Scanned.append_iff {m : List Char}
    (quiet : ∀ u v, m = u ++ v → v ≠ [] →
      token? rules (lastOf none (a ++ u)) (v ++ rest) = none) :
    Scanned rules a (m ++ rest) ss ↔ Scanned rules (a ++ m) rest ss := by
  induction m generalizing a with
  | nil => rw [List.nil_append, List.append_nil]
  | cons c m ih =>
    have here := quiet [] (c :: m) rfl (List.cons_ne_nil c m)
    rw [List.append_nil] at here
    have behind := ih (a := a ++ [c]) fun u v e ne => by
      rw [List.append_assoc]
      exact quiet (c :: u) v (by rw [e]; rfl) ne
    rw [List.append_assoc] at behind
    constructor
    · intro h
      exact behind.1 (h.of_none here)
    · intro h
      exact .skip here (behind.2 h)

/-- **A scan comes to a place** that no token runs over, and goes on from there whatever was found
before. The induction is on the scan, with the place moving towards it. -/
theorem Scanned.split {b : List Char} (h : Scanned rules a (b ++ rest) ss)
    (stays : ∀ u v k m, b = u ++ v → v ≠ [] →
      token? rules (lastOf none (a ++ u)) (v ++ rest) = some (k, m) → m <+: v) :
    ∃ earlier later, ss = earlier ++ later ∧ Scanned rules (a ++ b) rest later ∧
      ∀ s ∈ earlier, s.stop ≤ byteLength (a ++ b) := by
  generalize e : b ++ rest = text at h
  induction h generalizing b with
  | done a =>
    obtain ⟨rfl, rfl⟩ := List.append_eq_nil_iff.1 e
    exact ⟨[], [], rfl, .done _, by simp⟩
  | @token a m tail k ss here later ih =>
    cases b with
    | nil =>
      rw [List.append_nil]
      refine ⟨[], _, rfl, ?_, by simp⟩
      obtain rfl : rest = m ++ tail := e
      exact .token here later
    | cons c b =>
      obtain ⟨b', hb⟩ := stays [] (c :: b) k m rfl (List.cons_ne_nil c b) (by simpa [e] using here)
      rw [← hb] at stays e ⊢
      obtain rfl : b' ++ rest = tail := by simpa using e
      obtain ⟨earlier, behind, rfl, scanned, stop⟩ := ih (b := b')
        (fun u v k n hv ne found => stays (m ++ u) v k n (by rw [hv, List.append_assoc]) ne
          (by simpa using found)) rfl
      rw [List.append_assoc] at scanned stop
      refine ⟨_ :: earlier, behind, rfl, scanned, List.forall_mem_cons.2 ⟨?_, stop⟩⟩
      simp [spanAt]
  | @skip a tail c ss here later ih =>
    cases b with
    | nil =>
      rw [List.append_nil]
      obtain rfl : rest = c :: tail := e
      exact ⟨[], _, rfl, .skip here later, by simp⟩
    | cons d b =>
      obtain ⟨rfl, rfl⟩ : d = c ∧ b ++ rest = tail := by simpa using e
      obtain ⟨earlier, behind, rfl, scanned, stop⟩ := ih (b := b)
        (fun u v k n hv ne found => stays (d :: u) v k n (by rw [hv, List.cons_append]) ne
          (by simpa using found)) rfl
      rw [List.append_assoc] at scanned stop
      exact ⟨earlier, behind, rfl, scanned, stop⟩

end Scanned

end Scan
end LineTint
