import LineTint.Proofs.RuleFronts

/-!
# The best front of a repetition

Which text a rule takes depends on the order of the fronts. The rounds of a character class come
longest first if greedy and shortest first if not (`pairwise_fronts_more_char`), so a pattern that
goes on behind them takes the best number of rounds from which it can go on
(`front?_seq_more_char`). So a string ends with the nearest delimiter (`front?_delimited`).
-/

namespace LineTint.Pattern
set_option autoImplicit false
open Text

variable {p q : Pattern} {before : Option Char} {text m : List Char}

/-! ## Sequences and anchors -/

/-- Behind the first front of `p` from which `q` goes on stands its best front. -/
theorem front?_seq (p q : Pattern) (before : Option Char) (text : List Char) :
    (Pattern.seq p q).front? before text = (p.fronts before text).findSome? fun a =>
      (q.front? (lastOf before a) (text.drop a.length)).map (a ++ ·) := by
  simp only [front?, fronts_seq, List.head?_flatMap, extend, List.head?_map]

theorem front?_anchor_eq_none_iff {a : Anchor} :
    (Pattern.anchor a).front? before text = none ↔ a.holds before text.head? = false := by
  rw [front?, fronts_anchor]
  cases a.holds before text.head? <;> simp

theorem mem_fronts_of_front? (h : p.front? before text = some m) : m ∈ p.fronts before text :=
  List.mem_of_mem_head? h

/-! ## The order of the rounds -/

/-- Of two numbers of rounds the better one: more of them if greedy, fewer if not. -/
def MoreRounds (greedy : Bool) (a b : List Char) : Prop :=
  if greedy then b.length < a.length else a.length < b.length

theorem pairwise_inits {α : Type} (xs : List α) :
    xs.inits.Pairwise fun a b => a.length < b.length := by
  induction xs with
  | nil => simp
  | cons x xs ih =>
    rw [List.inits_cons, List.pairwise_cons]
    constructor
    · intro a ha
      obtain ⟨b, -, rfl⟩ := List.mem_map.1 ha
      simp
    · rw [List.pairwise_map]
      exact ih.imp fun h => by simpa using h

/-- The better number of rounds comes first. -/
theorem pairwise_fronts_more_char (greedy : Bool) (cls : CharClass) (before : Option Char)
    (text : List Char) :
    ((Pattern.more greedy (.char cls)).fronts before text).Pairwise (MoreRounds greedy) := by
  rw [fronts_more_char]
  have sorted := pairwise_inits (text.takeWhile cls.has)
  cases greedy with
  | true => exact List.pairwise_reverse.2 sorted
  | false => exact sorted

/-- **The rounds in front of a pattern** are the best ones from which the pattern goes on. -/
theorem front?_seq_more_char {greedy : Bool} {cls : CharClass}
    (h : (Pattern.seq (.more greedy (.char cls)) q).front? before text = some m) :
    ∃ a n, m = a ++ n ∧ (a <+: text ∧ ∀ c ∈ a, cls.has c = true) ∧
      q.front? (lastOf before a) (text.drop a.length) = some n ∧
      ∀ b, b <+: text → (∀ c ∈ b, cls.has c = true) → MoreRounds greedy b a →
        q.front? (lastOf before b) (text.drop b.length) = none := by
  rw [front?_seq, List.findSome?_eq_some_iff] at h
  obtain ⟨better, a, worse, order, goesOn, fail⟩ := h
  obtain ⟨n, hn, rfl⟩ := Option.map_eq_some_iff.1 goesOn
  have sorted := pairwise_fronts_more_char greedy cls before text
  have member : a ∈ (Pattern.more greedy (.char cls)).fronts before text := by simp [order]
  refine ⟨a, n, rfl, mem_fronts_more_char.1 member, hn, fun b front all more => ?_⟩
  have hb : b ∈ (Pattern.more greedy (.char cls)).fronts before text :=
    mem_fronts_more_char.2 ⟨front, all⟩
  rw [order] at hb sorted
  rcases List.mem_append.1 hb with hb | hb
  · exact Option.map_eq_none_iff.1 (fail b hb)
  · -- What is not tried before `a` is not better than `a`.
    exfalso
    rcases List.mem_cons.1 hb with rfl | hb
    · unfold MoreRounds at more
      split at more <;> omega
    · have less := (List.pairwise_cons.1 (List.pairwise_append.1 sorted).2.1).1 b hb
      unfold MoreRounds at more less
      split at more <;> simp_all <;> omega

/-! ## Strings -/

theorem front?_char_cons (cls : CharClass) (before : Option Char) (c : Char) (text : List Char) :
    (Pattern.char cls).front? before (c :: text) = if cls.has c then some [c] else none := by
  rw [front?, fronts_char_cons]
  split <;> rfl

/-- A string ends with the nearest delimiter. -/
theorem front?_delimited {ds : List Char} (hp : delimited? ds = some p)
    (h : p.front? before text = some m) :
    ∃ d mid e, m = d :: (mid ++ [e]) ∧ d ∈ ds ∧ e ∈ ds ∧ ∀ c ∈ mid, c ∉ ds := by
  obtain rfl := eq_of_delimited? hp
  rw [front?_seq] at h
  obtain ⟨a, opening, h⟩ := List.exists_of_findSome?_eq_some h
  obtain ⟨n, rest, rfl⟩ := Option.map_eq_some_iff.1 h
  obtain ⟨d, rfl, hd, t, rfl⟩ := mem_fronts_char.1 opening
  rw [CharClass.has_ofList, decide_eq_true_eq] at hd
  obtain ⟨mid, k, rfl, ⟨⟨b, rfl⟩, free⟩, closing, nearest⟩ := front?_seq_more_char rest
  obtain ⟨e, rfl, he, -⟩ := mem_fronts_char.1 (mem_fronts_of_front? closing)
  rw [CharClass.has_ofList, decide_eq_true_eq] at he
  refine ⟨d, mid, e, rfl, hd, he, fun c hc inside => ?_⟩
  -- A delimiter before the closing one would have closed the string.
  obtain ⟨u, v, rfl⟩ := List.append_of_mem hc
  have fewer : MoreRounds false u (u ++ c :: v) := by simp [MoreRounds]
  have fails := nearest u ⟨c :: v ++ b, by simp⟩
    (fun x hx => free x (List.mem_append_left _ hx)) fewer
  have closes : (CharClass.ofList ds).has c = true := by
    rw [CharClass.has_ofList]
    exact decide_eq_true inside
  simp [front?_char_cons, closes] at fails

/-- The text between two delimiters is what stands in front of the first delimiter behind the
opening one. -/
theorem eq_of_prefix_delimited {ds : List Char} {d e d' e' : Char} {mid mid' : List Char}
    (h : d :: (mid ++ [e]) <+: text) (he : e ∈ ds) (free : ∀ c ∈ mid, c ∉ ds)
    (h' : d' :: (mid' ++ [e']) <+: text) (he' : e' ∈ ds) (free' : ∀ c ∈ mid', c ∉ ds) :
    d :: (mid ++ [e]) = d' :: (mid' ++ [e']) := by
  obtain ⟨t, rfl⟩ := h
  obtain ⟨t', shape⟩ := h'
  have front : ∀ {mid : List Char} {e : Char} (t : List Char), e ∈ ds → (∀ c ∈ mid, c ∉ ds) →
      (mid ++ e :: t).takeWhile (fun c => decide (c ∉ ds)) = mid := by
    intro mid e t he free
    rw [List.takeWhile_append_of_pos fun c hc => decide_eq_true (free c hc),
      List.takeWhile_cons_of_neg (by simp [he]), List.append_nil]
  obtain ⟨rfl, rest⟩ : d' = d ∧ mid' ++ e' :: t' = mid ++ e :: t := by simpa using shape
  have same : mid' = mid := by rw [← front t' he' free', rest, front t he free]
  subst same
  obtain ⟨rfl, -⟩ : e' = e ∧ t' = t := by simpa using rest
  rfl

/-- **The best string of a place** opens and closes with a delimiter and has neither delimiters nor
newlines between them. -/
theorem front?_delimited_iff {ds : List Char} (hp : delimited? ds = some p) :
    p.front? before text = some m ↔ m <+: text ∧
      ∃ d mid e, m = d :: (mid ++ [e]) ∧ d ∈ ds ∧ e ∈ ds ∧ ∀ c ∈ mid, c ∉ ds ∧ c ≠ '\n' := by
  have sound : ∀ {n}, p.front? before text = some n → n <+: text ∧
      ∃ d mid e, n = d :: (mid ++ [e]) ∧ d ∈ ds ∧ e ∈ ds ∧ ∀ c ∈ mid, c ∉ ds ∧ c ≠ '\n' := by
    intro n h
    obtain ⟨front, d', mid', e', shape, -, -, noNewline⟩ :=
      (mem_fronts_delimited hp).1 (mem_fronts_of_front? h)
    obtain ⟨d, mid, e, rfl, hd, he, free⟩ := front?_delimited hp h
    obtain ⟨-, same⟩ := List.cons.inj shape
    obtain ⟨rfl, -⟩ := List.append_inj' same rfl
    refine ⟨front, d, mid, e, rfl, hd, he, fun c hc => ⟨free c hc, ?_⟩⟩
    rintro rfl
    exact noNewline hc
  refine ⟨sound, fun ⟨front, d, mid, e, shape, hd, he, free⟩ => ?_⟩
  have member : m ∈ p.fronts before text :=
    (mem_fronts_delimited hp).2
      ⟨front, d, mid, e, shape, hd, he, fun newline => (free '\n' newline).2 rfl⟩
  cases best : p.front? before text with
  | none =>
    rw [front?, List.head?_eq_none_iff] at best
    rw [best] at member
    exact absurd member (by simp)
  | some n =>
    obtain ⟨front', d', mid', e', rfl, -, he', free'⟩ := sound best
    subst shape
    rw [eq_of_prefix_delimited front' he' (fun c hc => (free' c hc).1) front he
      fun c hc => (free c hc).1]

end LineTint.Pattern
