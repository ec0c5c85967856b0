import LineTint.Pattern.Basic
import LineTint.Proofs.Place
import Mathlib.Data.List.Basic

/-!
# The fronts that a pattern describes

`Pattern.fronts` lists all texts that a pattern describes at a place, best first, as a search
with backtracking would come upon them. It obeys one equation for each form of a pattern
(`fronts_seq`, `fronts_alt`, `fronts_plus`, `fronts_more`), and `matchLength?_eq` says that
the matcher, which follows all patterns in play at once and keeps each only once, gives the
length of the first of them.
-/

namespace LineTint.Pattern
set_option autoImplicit false
open Text

/-- The texts after a move, where `after` gives those of the pattern that is left. -/
def Move.fronts (after : Pattern → List (List Char)) : Move → List (List Char)
  | .stop => [[]]
  | .go rest => after rest

/-- The fronts of a text after the character `before` that the pattern describes, best first. -/
def fronts (p : Pattern) (before : Option Char) : List Char → List (List Char)
  | [] => (p.moves before none).flatMap (Move.fronts fun _ => [])
  | c :: text =>
    (p.moves before (some c)).flatMap
      (Move.fronts fun rest => (fronts rest (some c) text).map (c :: ·))

/-! ## One equation for each form -/

/-- Nothing can be read where the text ends. -/
theorem eq_stop_of_mem_moves {p : Pattern} {before : Option Char} {m : Move}
    (h : m ∈ p.moves before none) : m = .stop := by
  induction p generalizing m with
  | empty => simpa [moves] using h
  | char cls => simp [moves] at h
  | anchor a =>
    simp only [moves] at h
    split at h <;> simp_all
  | seq p q ihp ihq =>
    obtain ⟨n, hn, h⟩ := List.mem_flatMap.1 h
    obtain rfl := ihp hn
    exact ihq h
  | alt p q ihp ihq => exact (List.mem_append.1 h).elim ihp ihq
  | plus greedy p ih =>
    obtain ⟨n, hn, rfl⟩ := List.mem_map.1 h
    rw [ih hn]
    rfl
  | more greedy p ih =>
    have rounds : (p.moves before none).filterMap
        (fun n => n.rest?.map fun rest => Move.go (rest.andThen (.more greedy p))) = [] := by
      rw [List.filterMap_eq_nil_iff]
      intro n hn
      rw [ih hn]
      rfl
    simp only [moves, rounds] at h
    cases greedy <;> simpa using h

theorem andThen_empty (p : Pattern) : p.andThen .empty = p := by
  cases p <;> rfl

theorem moves_seq_empty (p : Pattern) (before after : Option Char) :
    (Pattern.seq p .empty).moves before after = p.moves before after := by
  have single : ∀ ms : List Move, (ms.flatMap fun
      | .stop => [Move.stop]
      | .go rest => [.go (rest.andThen .empty)]) = ms := by
    intro ms
    induction ms with
    | nil => rfl
    | cons m ms ih =>
      rw [List.flatMap_cons, ih]
      cases m with
      | stop => rfl
      | go rest =>
        simp only [andThen_empty]
        rfl
  exact single _

theorem moves_andThen (p q : Pattern) (before after : Option Char) :
    (p.andThen q).moves before after = (Pattern.seq p q).moves before after := by
  by_cases hp : p = .empty
  · subst hp
    have e : Pattern.empty.andThen q = q := by cases q <;> rfl
    rw [e]
    simp only [moves, List.flatMap_cons, List.flatMap_nil, List.append_nil]
  · by_cases hq : q = .empty
    · subst hq
      rw [andThen_empty, moves_seq_empty]
    · have e : p.andThen q = .seq p q := by
        cases p <;> cases q <;> first | rfl | exact absurd rfl hp | exact absurd rfl hq
      rw [e]

theorem fronts_andThen (p q : Pattern) (before : Option Char) (text : List Char) :
    (p.andThen q).fronts before text = (Pattern.seq p q).fronts before text := by
  cases text <;> simp only [fronts, moves_andThen]

@[simp] theorem fronts_empty (before : Option Char) (text : List Char) :
    Pattern.empty.fronts before text = [[]] := by
  cases text <;> rfl

@[simp] theorem fronts_anchor (a : Anchor) (before : Option Char) (text : List Char) :
    (Pattern.anchor a).fronts before text = if a.holds before text.head? then [[]] else [] := by
  by_cases h : a.holds before text.head? = true
  · cases text <;> simp_all [fronts, moves, Move.fronts]
  · cases text <;> simp_all [fronts, moves]

theorem fronts_char_nil (cls : CharClass) (before : Option Char) :
    (Pattern.char cls).fronts before [] = [] := rfl

theorem fronts_char_cons (cls : CharClass) (before : Option Char) (c : Char) (text : List Char) :
    (Pattern.char cls).fronts before (c :: text) = if cls.has c then [[c]] else [] := by
  simp only [fronts, moves, Option.any_some]
  split
  · simp [Move.fronts]
  · rfl

theorem fronts_alt (p q : Pattern) (before : Option Char) (text : List Char) :
    (Pattern.alt p q).fronts before text = p.fronts before text ++ q.fronts before text := by
  cases text <;> simp only [fronts, moves, List.flatMap_append]

/-- The texts of `q` behind each of some fronts of `text`. -/
def extend (q : Pattern) (before : Option Char) (text : List Char) (a : List Char) :
    List (List Char) :=
  (q.fronts (lastOf before a) (text.drop a.length)).map (a ++ ·)

@[simp] theorem extend_nil (q : Pattern) (before : Option Char) (text : List Char) :
    q.extend before text [] = q.fronts before text := by
  simp [extend]

theorem extend_cons (q : Pattern) (before : Option Char) (c : Char) (text a : List Char) :
    q.extend before (c :: text) (c :: a) = (q.extend (some c) text a).map (c :: ·) := by
  simp [extend]

theorem fronts_seq (p q : Pattern) (before : Option Char) (text : List Char) :
    (Pattern.seq p q).fronts before text =
      (p.fronts before text).flatMap (q.extend before text) := by
  induction text generalizing p before with
  | nil =>
    simp only [fronts, moves, List.flatMap_assoc]
    refine List.flatMap_congr fun m hm => ?_
    obtain rfl := eq_stop_of_mem_moves hm
    simp [Move.fronts, fronts]
  | cons c text ih =>
    simp only [fronts, moves, List.flatMap_assoc]
    refine List.flatMap_congr fun m _ => ?_
    cases m with
    | stop => simp [Move.fronts, fronts]
    | go rest =>
      simp only [Move.fronts, List.flatMap_cons, List.flatMap_nil, List.append_nil,
        fronts_andThen, ih, List.map_flatMap, List.flatMap_map, extend_cons]

/-- An empty first round ends the repetition. -/
theorem fronts_plus (greedy : Bool) (p : Pattern) (before : Option Char) (text : List Char) :
    (Pattern.plus greedy p).fronts before text = (p.fronts before text).flatMap fun a =>
      if a = [] then [[]] else (Pattern.more greedy p).extend before text a := by
  cases text with
  | nil =>
    simp only [fronts, moves, List.flatMap_map, List.flatMap_assoc]
    refine List.flatMap_congr fun m hm => ?_
    obtain rfl := eq_stop_of_mem_moves hm
    simp [Move.andThen, Move.fronts]
  | cons c text =>
    simp only [fronts, moves, List.flatMap_map, List.flatMap_assoc]
    refine List.flatMap_congr fun m _ => ?_
    cases m with
    | stop => simp [Move.andThen, Move.fronts]
    | go rest =>
      simp only [Move.andThen, Move.fronts, fronts_andThen, fronts_seq, List.map_flatMap,
        List.flatMap_map, extend_cons, reduceCtorEq, if_false]

/-- The moves of a pattern that read a character, each with `q` to follow. -/
def readThen (q : Pattern) (ms : List Move) : List Move :=
  ms.filterMap fun m => m.rest?.map fun rest => .go (rest.andThen q)

theorem flatMap_readThen (q : Pattern) (after : Pattern → List (List Char)) (ms : List Move) :
    (readThen q ms).flatMap (Move.fronts after) = ms.flatMap fun
      | .stop => []
      | .go rest => after (rest.andThen q) := by
  rw [readThen, List.filterMap_eq_flatMap_toList, List.flatMap_assoc]
  refine List.flatMap_congr fun m _ => ?_
  cases m with
  | stop => rfl
  | go rest => simp [Move.rest?, Move.fronts]

/-- The later rounds of a repetition: what `q` adds behind a round that is not empty. -/
theorem flatMap_rounds (p q : Pattern) (before : Option Char) (text : List Char) :
    (p.fronts before text).flatMap (fun a => if a = [] then [] else q.extend before text a) =
      match text with
      | [] => (readThen q (p.moves before none)).flatMap (Move.fronts fun _ => [])
      | c :: text => (readThen q (p.moves before (some c))).flatMap
          (Move.fronts fun rest => (fronts rest (some c) text).map (c :: ·)) := by
  cases text with
  | nil =>
    simp only [flatMap_readThen, fronts, List.flatMap_assoc]
    refine List.flatMap_congr fun m hm => ?_
    obtain rfl := eq_stop_of_mem_moves hm
    simp [Move.fronts]
  | cons c text =>
    simp only [flatMap_readThen, fronts, List.flatMap_assoc]
    refine List.flatMap_congr fun m _ => ?_
    cases m with
    | stop => simp [Move.fronts]
    | go rest =>
      simp only [Move.fronts, fronts_andThen, fronts_seq, List.map_flatMap, List.flatMap_map,
        extend_cons, reduceCtorEq, if_false]

/-- An empty round is no round. -/
theorem fronts_more (greedy : Bool) (p : Pattern) (before : Option Char) (text : List Char) :
    (Pattern.more greedy p).fronts before text =
      let rounds := (p.fronts before text).flatMap fun a =>
        if a = [] then [] else (Pattern.more greedy p).extend before text a
      if greedy then rounds ++ [[]] else [] :: rounds := by
  rw [flatMap_rounds]
  cases text with
  | nil => cases greedy <;> simp [fronts, moves, readThen, Move.fronts]
  | cons c text => cases greedy <;> simp [fronts, moves, readThen, Move.fronts]

/-! ## The matcher -/

/-- A search may leave out what yields nothing. -/
theorem findSome?_filter_of_none {α β : Type} {f : α → Option β} {keep : α → Bool}
    (h : ∀ x, keep x = false → f x = none) (xs : List α) :
    (xs.filter keep).findSome? f = xs.findSome? f := by
  induction xs with
  | nil => rfl
  | cons x xs ih =>
    cases hx : keep x with
    | true => simp only [List.filter_cons_of_pos hx, List.findSome?_cons, ih]
    | false =>
      rw [List.filter_cons_of_neg (by simp [hx]), ih, List.findSome?_cons, h x hx]

/-- Induction along the erasing of repetitions, which goes on behind `x` without `x`. -/
theorem eraseDups_induction {α : Type} [BEq α] {P : List α → Prop} (nil : P [])
    (cons : ∀ x xs, P (xs.filter fun y => !y == x) → P (x :: xs)) (xs : List α) : P xs := by
  induction h : xs.length using Nat.strongRecOn generalizing xs with
  | ind n ih =>
    cases xs with
    | nil => exact nil
    | cons x xs =>
      have shorter := List.length_filter_le (fun y => !y == x) xs
      rw [List.length_cons] at h
      exact cons x xs (ih _ (by omega) _ rfl)

theorem findSome?_eraseDups {α β : Type} [BEq α] [LawfulBEq α] (f : α → Option β) (xs : List α) :
    xs.eraseDups.findSome? f = xs.findSome? f := by
  induction xs using eraseDups_induction with
  | nil => rfl
  | cons x xs ih =>
    rw [List.eraseDups_cons, List.findSome?_cons, List.findSome?_cons]
    cases hx : f x with
    | some y => rfl
    | none =>
      simp only [ih]
      refine findSome?_filter_of_none (fun y hy => ?_) xs
      rw [show y = x by simpa using hy, hx]

/-- The first text after some moves comes from a move before the first stop, or is empty. -/
theorem head?_flatMap_fronts (after : Pattern → List (List Char)) (ms : List Move) :
    (ms.flatMap (Move.fronts after)).head? =
      ((better ms).findSome? fun rest => (after rest).head?).or
        (if .stop ∈ ms then some [] else none) := by
  induction ms with
  | nil => rfl
  | cons m ms ih =>
    rw [List.flatMap_cons, List.head?_append, ih]
    cases m with
    | stop => simp [Move.fronts, better]
    | go rest =>
      have e : better (.go rest :: ms) = rest :: better ms := by simp [better, Move.rest?]
      rw [e, List.findSome?_cons]
      cases h : (after rest).head? <;> simp [Move.fronts, h]

/-- The matcher gives the length of the best front. -/
theorem extent_eq (ps : List Pattern) (before : Option Char) (text : List Char) :
    extent ps before text = (ps.flatMap fun p => p.fronts before text).head?.map byteLength := by
  induction text generalizing ps before with
  | nil =>
    simp only [extent, fronts, ← List.flatMap_assoc, head?_flatMap_fronts]
    have : ((better (ps.flatMap (moves before none))).findSome?
        fun _ => ([] : List (List Char)).head?) = none := by simp
    rw [this]
    split <;> rfl
  | cons c text ih =>
    simp only [extent, fronts, ← List.flatMap_assoc, head?_flatMap_fronts]
    generalize ps.flatMap (moves before (some c)) = ms
    rw [← findSome?_eraseDups]
    cases (better ms).eraseDups with
    | nil => by_cases h : Move.stop ∈ ms <;> simp [h]
    | cons q qs =>
      have longer :
          ((q :: qs).findSome? fun rest => ((rest.fronts (some c) text).map (c :: ·)).head?) =
            ((q :: qs).flatMap fun p => p.fronts (some c) text).head?.map (c :: ·) := by
        simp only [List.head?_flatMap, List.map_findSome?, List.head?_map, Function.comp_def]
      simp only [ih, longer]
      cases ((q :: qs).flatMap fun p => p.fronts (some c) text).head? with
      | none => by_cases h : Move.stop ∈ ms <;> simp [h]
      | some a => simp

theorem matchLength?_eq (p : Pattern) (before : Option Char) (text : List Char) :
    p.matchLength? before text = (p.fronts before text).head?.map byteLength := by
  simp only [matchLength?, extent_eq, List.flatMap_cons, List.flatMap_nil, List.append_nil]

theorem prefix_of_mem_fronts {p : Pattern} {before : Option Char} {text a : List Char}
    (h : a ∈ p.fronts before text) : a <+: text := by
  induction text generalizing p before a with
  | nil =>
    obtain ⟨m, hm, ha⟩ := List.mem_flatMap.1 h
    obtain rfl := eq_stop_of_mem_moves hm
    obtain rfl := List.mem_singleton.1 ha
    exact List.prefix_rfl
  | cons c text ih =>
    obtain ⟨m, _, ha⟩ := List.mem_flatMap.1 h
    cases m with
    | stop =>
      obtain rfl := List.mem_singleton.1 ha
      exact List.nil_prefix
    | go rest =>
      obtain ⟨b, hb, rfl⟩ := List.mem_map.1 ha
      exact List.cons_prefix_cons.2 ⟨rfl, ih hb⟩

end LineTint.Pattern
