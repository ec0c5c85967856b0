import LineTint.Proofs.Fronts

/-!
# The leftmost match

`Pattern.find?` tries the places of a text one after the other. `find?_eq_some_iff` says that it
gives the first place where the pattern matches, with the length of the best match there. So a
match that is found stays the next one for as long as the search does not begin behind it
(`find?_of_found`), and a pattern that has no match has none from any later place on
(`find?_of_none`).
-/

namespace LineTint.Pattern
set_option autoImplicit false
open Text

variable {p : Pattern} {before : Option Char} {offset : Nat} {text : List Char} {start stop : Nat}

/-- The best text at a place. -/
def front? (p : Pattern) (before : Option Char) (text : List Char) : Option (List Char) :=
  (p.fronts before text).head?

theorem matchLength?_eq_front? (p : Pattern) (before : Option Char) (text : List Char) :
    p.matchLength? before text = (p.front? before text).map byteLength :=
  matchLength?_eq p before text

theorem prefix_of_front? {a : List Char} (h : p.front? before text = some a) : a <+: text :=
  prefix_of_mem_fronts (List.mem_of_mem_head? h)

/-- No match begins before the place where the search begins. -/
theorem le_of_find? (h : p.find? before offset text = some (start, stop)) : offset ≤ start := by
  induction text generalizing before offset with
  | nil =>
    obtain ⟨n, _, e⟩ := Option.map_eq_some_iff.1 h
    simp only [Prod.mk.injEq] at e
    omega
  | cons c text ih =>
    simp only [find?] at h
    split at h
    · simp only [Option.some.injEq, Prod.mk.injEq] at h
      omega
    · have := ih h
      omega

/-- A match behind the place where the search begins is found from the next place too. -/
theorem find?_of_found {c : Char} (h : p.find? before offset (c :: text) = some (start, stop))
    (behind : offset < start) :
    p.find? (some c) (offset + c.utf8Size) text = some (start, stop) := by
  simp only [find?] at h
  split at h
  · simp only [Option.some.injEq, Prod.mk.injEq] at h
    omega
  · exact h

theorem find?_of_none {c : Char} (h : p.find? before offset (c :: text) = none) :
    p.find? (some c) (offset + c.utf8Size) text = none := by
  simp only [find?] at h
  split at h
  · exact absurd h (by simp)
  · exact h

/-- A match at the very place where the search begins is the best front there. -/
theorem find?_here :
    p.find? before offset text = some (offset, stop) ↔
      ∃ a, p.front? before text = some a ∧ stop = offset + byteLength a := by
  cases text with
  | nil =>
    simp only [find?, matchLength?_eq_front?]
    cases p.front? before [] <;> simp [eq_comm]
  | cons c text =>
    simp only [find?, matchLength?_eq_front?]
    cases p.front? before (c :: text) with
    | some a => simp [eq_comm]
    | none =>
      simp only [Option.map_none, reduceCtorEq, false_and, exists_false, iff_false]
      intro h
      have := le_of_find? h
      have := c.utf8Size_pos
      omega

/-- The search for a match of `p` from `offset` ends at the place behind `a`, with `m` as the
best front there. -/
structure FoundAfter (p : Pattern) (before : Option Char) (a b m : List Char) : Prop where
  best : p.front? (lastOf before a) b = some m
  first : ∀ u v, a = u ++ v → v ≠ [] → p.front? (lastOf before u) (v ++ b) = none

theorem FoundAfter.cons {c : Char} {a b m : List Char} :
    FoundAfter p before (c :: a) b m ↔
      p.front? before (c :: (a ++ b)) = none ∧ FoundAfter p (some c) a b m := by
  constructor
  · intro h
    refine ⟨h.first [] (c :: a) rfl (List.cons_ne_nil c a), h.best, fun u v e ne => ?_⟩
    exact h.first (c :: u) v (by rw [e]; rfl) ne
  · rintro ⟨here, best, first⟩
    refine ⟨best, fun u v e ne => ?_⟩
    cases u with
    | nil =>
      obtain rfl : c :: a = v := e
      exact here
    | cons d u =>
      obtain ⟨rfl, rfl⟩ : c = d ∧ a = u ++ v := by simpa using e
      exact first u v rfl ne

/-- A search ends where it begins exactly if there is a front there. -/
theorem FoundAfter.eq_nil {a b m n : List Char} (h : FoundAfter p before a b m)
    (here : p.front? before (a ++ b) = some n) : a = [] ∧ m = n := by
  have nil : a = [] := by
    by_cases ne : a = []
    · exact ne
    · exact absurd ((h.first [] a rfl ne).symm.trans here) (by simp)
  subst nil
  exact ⟨rfl, Option.some.inj (h.best.symm.trans here)⟩

/-- **The leftmost match**: a search gives the first place from which the pattern matches, and
the best front there. -/
theorem find?_eq_some_iff :
    p.find? before offset text = some (start, stop) ↔
      ∃ a b m, text = a ++ b ∧ start = offset + byteLength a ∧ stop = start + byteLength m ∧
        FoundAfter p before a b m := by
  have atOnce : ∀ {before offset text n}, p.front? before text = some n →
      (p.find? before offset text = some (start, stop) ↔
        ∃ a b m, text = a ++ b ∧ start = offset + byteLength a ∧ stop = start + byteLength m ∧
          FoundAfter p before a b m) := by
    intro before offset text n here
    rw [find?_here.2 ⟨n, here, rfl⟩]
    constructor
    · intro e
      obtain ⟨rfl, rfl⟩ := Prod.mk.inj (Option.some.inj e)
      refine ⟨[], text, n, rfl, rfl, rfl, here, fun u v e ne => ?_⟩
      exact absurd (List.append_eq_nil_iff.1 e.symm).2 ne
    · rintro ⟨a, b, m, rfl, rfl, rfl, h⟩
      obtain ⟨rfl, rfl⟩ := h.eq_nil here
      rfl
  induction text generalizing before offset with
  | nil =>
    cases here : p.front? before [] with
    | some n => exact atOnce here
    | none =>
      simp only [find?, matchLength?_eq_front?, here, Option.map_none, reduceCtorEq, false_iff]
      rintro ⟨a, b, m, e, -, -, h⟩
      obtain ⟨rfl, rfl⟩ := List.append_eq_nil_iff.1 e.symm
      exact absurd (h.best.symm.trans here) (by simp)
  | cons c text ih =>
    cases here : p.front? before (c :: text) with
    | some n => exact atOnce here
    | none =>
      simp only [find?, matchLength?_eq_front?, here, Option.map_none, ih]
      constructor
      · rintro ⟨a, b, m, rfl, rfl, rfl, h⟩
        refine ⟨c :: a, b, m, rfl, ?_, rfl, FoundAfter.cons.2 ⟨here, h⟩⟩
        rw [byteLength_cons, Nat.add_assoc]
      · rintro ⟨a, b, m, e, rfl, rfl, h⟩
        cases a with
        | nil =>
          obtain rfl : c :: text = b := e
          exact absurd (h.best.symm.trans here) (by simp)
        | cons d a =>
          obtain ⟨rfl, rfl⟩ : c = d ∧ text = a ++ b := by simpa using e
          refine ⟨a, b, m, rfl, ?_, rfl, (FoundAfter.cons.1 h).2⟩
          rw [byteLength_cons, Nat.add_assoc]

/-- Nothing is found where the pattern matches at no place. -/
theorem find?_eq_none_iff :
    p.find? before offset text = none ↔
      ∀ a b, text = a ++ b → p.front? (lastOf before a) b = none := by
  induction text generalizing before offset with
  | nil =>
    simp only [find?, matchLength?_eq_front?, Option.map_eq_none_iff]
    constructor
    · rintro none a b e
      obtain ⟨rfl, rfl⟩ := List.append_eq_nil_iff.1 e.symm
      exact none
    · intro h
      exact h [] [] rfl
  | cons c text ih =>
    cases here : p.front? before (c :: text) with
    | some m =>
      simp only [find?, matchLength?_eq_front?, here, Option.map_some, reduceCtorEq, false_iff]
      intro h
      exact absurd (h [] (c :: text) rfl) (by simp [here])
    | none =>
      simp only [find?, matchLength?_eq_front?, here, Option.map_none, ih]
      constructor
      · rintro h a b e
        cases a with
        | nil =>
          obtain rfl : c :: text = b := e
          exact here
        | cons d a =>
          obtain ⟨rfl, rfl⟩ : c = d ∧ text = a ++ b := by simpa using e
          exact h a b rfl
      · rintro h a b rfl
        exact h (c :: a) b rfl

end LineTint.Pattern
