import LineTint.Proofs.BestFront

/-!
# Blanks at the edges of a text

What the patterns of a lexicon match does not depend on blanks around the text. Of the character
before it only counts whether it is a word character, and blanks behind it are read by no match
that could not stop before them: numbers read no blanks (`Shuns.front?_append`), strings end
with a delimiter (`front?_delimited_append`), and words end with a character that is no blank
(`front?_wholeWord_append`).
-/

namespace LineTint.Text
set_option autoImplicit false

/-! ## Neighbours of a place -/

/-- Two neighbours of a place that word boundaries cannot tell apart. -/
def Alike (a b : Option Char) : Prop :=
  a.any isWord = b.any isWord

theorem isBoundary_congr {a a' b b' : Option Char} (left : Alike a a') (right : Alike b b') :
    isBoundary a b = isBoundary a' b' := by
  rw [isBoundary, isBoundary, left, right]

theorem Alike.lastOf {before before' : Option Char} (h : Alike before before') (a : List Char) :
    Alike (Text.lastOf before a) (Text.lastOf before' a) := by
  cases a with
  | nil => exact h
  | cons c a => rfl

variable {w : List Char}

/-- Blanks behind a text look like its end. -/
theorem alike_getElem?_append (blank : ∀ c ∈ w, isBlank c = true) (text : List Char) (n : Nat) :
    Alike (text ++ w)[n]? text[n]? := by
  by_cases inside : n < text.length
  · rw [List.getElem?_append_left inside]
    rfl
  · have outside : text.length ≤ n := by omega
    rw [List.getElem?_append_right outside, List.getElem?_eq_none outside]
    cases e : w[n - text.length]? with
    | none => rfl
    | some c => exact isWord_of_isBlank (blank c (List.mem_of_getElem? e))

/-- A front that does not end in the text behind is one of the text before. -/
theorem prefix_append_iff_of_getLast? {m text : List Char}
    (stays : ∀ c ∈ m.getLast?, c ∉ w) : m <+: text ++ w ↔ m <+: text := by
  refine ⟨fun h => ?_, fun h => h.trans (List.prefix_append text w)⟩
  rcases List.prefix_or_prefix_of_prefix h (List.prefix_append text w) with inside | ⟨t, rfl⟩
  · exact inside
  · obtain ⟨u, rfl⟩ := (List.prefix_append_right_inj text).1 h
    by_cases nil : t = []
    · rw [nil, List.append_nil]
    · refine absurd (List.mem_append_left u (List.getLast_mem nil)) (stays _ ?_)
      rw [List.getLast?_append_of_ne_nil text nil, List.getLast?_eq_some_getLast nil]
      rfl

end LineTint.Text

namespace LineTint.Pattern
set_option autoImplicit false
open Text

variable {p : Pattern} {before before' after after' : Option Char} {text w : List Char}

/-! ## Patterns without blanks -/

/-- The pattern reads no blanks, and asks of its neighbours for word boundaries only. -/
def Shuns : Pattern → Prop
  | .empty => True
  | .char cls => ∀ c, isBlank c = true → cls.has c = false
  | .anchor a => a = .boundary
  | .seq p q => Shuns p ∧ Shuns q
  | .alt p q => Shuns p ∧ Shuns q
  | .plus _ p => Shuns p
  | .more _ p => Shuns p

theorem Shuns.andThen {q : Pattern} (hp : p.Shuns) (hq : q.Shuns) : (p.andThen q).Shuns := by
  cases p with
  | empty => exact hq
  | _ =>
    cases q with
    | empty => exact hp
    | _ => exact ⟨hp, hq⟩

/-- What a move leaves shuns blanks too. -/
theorem Shuns.of_go {rest : Pattern} (h : p.Shuns) (hm : .go rest ∈ p.moves before after) :
    rest.Shuns := by
  induction p generalizing rest with
  | empty => exact absurd hm (by simp [moves])
  | char cls =>
    simp only [moves] at hm
    split at hm
    · obtain rfl : rest = .empty := by simpa using hm
      trivial
    · exact absurd hm (by simp)
  | anchor a =>
    simp only [moves] at hm
    split at hm <;> exact absurd hm (by simp)
  | seq p q ihp ihq =>
    obtain ⟨m, member, hm⟩ := List.mem_flatMap.1 hm
    cases m with
    | stop => exact ihq h.2 hm
    | go rest' =>
      obtain rfl : rest = rest'.andThen q := by simpa using hm
      exact (ihp h.1 member).andThen h.2
  | alt p q ihp ihq =>
    rcases List.mem_append.1 hm with hm | hm
    · exact ihp h.1 hm
    · exact ihq h.2 hm
  | plus greedy p ih =>
    obtain ⟨m, member, e⟩ := List.mem_map.1 hm
    cases m with
    | stop => exact absurd e (by simp [Move.andThen])
    | go rest' =>
      obtain rfl : rest'.andThen (.more greedy p) = rest := Move.go.inj e
      exact (ih h member).andThen h
  | more greedy p ih =>
    have round : .go rest ∈ readThen (.more greedy p) (p.moves before after) := by
      cases greedy with
      | true => simpa [moves, readThen] using hm
      | false => simpa [moves, readThen] using hm
    obtain ⟨m, member, e⟩ := List.mem_filterMap.1 round
    obtain ⟨rest', left, e⟩ := Option.map_eq_some_iff.1 e
    obtain rfl : rest'.andThen (.more greedy p) = rest := Move.go.inj e
    cases m with
    | stop => exact absurd left (by simp [Move.rest?])
    | go rest'' =>
      obtain rfl := Option.some.inj left
      exact (ih h member).andThen h

/-- The moves are the same beside neighbours that are alike, if the one behind is the same or both
are blanks or ends. -/
theorem Shuns.moves_congr (h : p.Shuns) (left : Alike before before')
    (right : after = after' ∨
      (∀ c ∈ after, isBlank c = true) ∧ ∀ c ∈ after', isBlank c = true) :
    p.moves before after = p.moves before' after' := by
  have same : ∀ {has : Char → Bool}, (∀ c, isBlank c = true → has c = false) →
      after.any has = after'.any has := by
    intro has shut
    rcases right with rfl | ⟨blank, blank'⟩
    · rfl
    · have none : ∀ {o : Option Char}, (∀ c ∈ o, isBlank c = true) → o.any has = false :=
        fun blank => (Option.any_eq_false has _).2 fun c hc => shut c (blank c hc)
      rw [none blank, none blank']
  induction p with
  | empty => rfl
  | char cls =>
    have read : after.any cls.has = after'.any cls.has := same h
    simp only [moves, read]
  | anchor a =>
    obtain rfl : a = .boundary := h
    have holds : Anchor.boundary.holds before after = Anchor.boundary.holds before' after' :=
      isBoundary_congr left (same fun _ => isWord_of_isBlank)
    simp only [moves, holds]
  | seq p q ihp ihq => simp only [moves, ihp h.1, ihq h.2]
  | alt p q ihp ihq => simp only [moves, ihp h.1, ihq h.2]
  | plus greedy p ih => simp only [moves, ih h]
  | more greedy p ih => simp only [moves, ih h]

/-- Blanks behind a text make no front more. -/
theorem Shuns.fronts_append (h : p.Shuns) (left : Alike before before')
    (blank : ∀ c ∈ w, isBlank c = true) (text : List Char) :
    p.fronts before (text ++ w) = p.fronts before' text := by
  induction text generalizing p before before' with
  | nil =>
    cases w with
    | nil => simp only [List.nil_append, fronts, h.moves_congr left (.inl rfl)]
    | cons b w =>
      have first : ∀ c ∈ some b, isBlank c = true := by
        rintro c ⟨⟩
        exact blank b List.mem_cons_self
      have same : p.moves before (some b) = p.moves before' none :=
        h.moves_congr left (.inr ⟨first, by simp⟩)
      simp only [List.nil_append, fronts, same]
      refine List.flatMap_congr fun m hm => ?_
      obtain rfl := eq_stop_of_mem_moves hm
      rfl
  | cons c text ih =>
    simp only [List.cons_append, fronts, h.moves_congr left (.inl rfl)]
    refine List.flatMap_congr fun m hm => ?_
    cases m with
    | stop => rfl
    | go rest => simp only [Move.fronts, ih (h.of_go hm) rfl]

theorem Shuns.front?_append (h : p.Shuns) (left : Alike before before')
    (blank : ∀ c ∈ w, isBlank c = true) : p.front? before (text ++ w) = p.front? before' text := by
  rw [front?, front?, h.fronts_append left blank]

theorem shuns_number : number.Shuns := by
  have digit : (Pattern.char .asciiDigit).Shuns := by
    intro c blank
    rw [← Bool.not_eq_true]
    intro has
    exact absurd blank (by simp [CharClass.isBlank_of_asciiDigit has])
  have dot : (Pattern.char (.single '.')).Shuns := by
    intro c blank
    rw [has_single, decide_eq_false_iff_not]
    rintro rfl
    exact absurd blank (by decide)
  exact ⟨rfl, digit, ⟨dot, trivial⟩, digit, rfl⟩

/-! ## Strings and words -/

theorem front?_delimited_append {ds : List Char} (hp : delimited? ds = some p)
    (outside : ∀ c ∈ w, c ∉ ds) : p.front? before (text ++ w) = p.front? before' text := by
  refine Option.ext fun m => ?_
  rw [front?_delimited_iff hp, front?_delimited_iff hp]
  refine and_congr_left ?_
  rintro ⟨d, mid, e, rfl, -, he, -⟩
  refine prefix_append_iff_of_getLast? fun c hc inside => ?_
  rw [← List.cons_append, List.getLast?_concat] at hc
  obtain rfl := Option.some.inj hc
  exact outside e inside he

/-- The ends of a text are no blanks. -/
structure SolidEnds (v : List Char) : Prop where
  first : v.head?.any isBlank = false
  last : v.getLast?.any isBlank = false

instance (v : List Char) : Decidable (SolidEnds v) :=
  decidable_of_iff (_ ∧ _) ⟨fun h => ⟨h.1, h.2⟩, fun h => ⟨h.1, h.2⟩⟩

/-- A front with solid ends does not end in the blanks behind a text. -/
theorem SolidEnds.prefix_append_iff {v : List Char} (solid : SolidEnds v)
    (blank : ∀ c ∈ w, isBlank c = true) : v <+: text ++ w ↔ v <+: text := by
  refine prefix_append_iff_of_getLast? fun c hc inside => ?_
  have last := solid.last
  rw [Option.mem_def.1 hc, Option.any_some, blank c inside] at last
  exact absurd last (by decide)

theorem standsWhole_append {v : List Char} (solid : SolidEnds v) (left : Alike before before')
    (blank : ∀ c ∈ w, isBlank c = true) :
    StandsWhole before (text ++ w) v ↔ StandsWhole before' text v := by
  have next := alike_getElem?_append blank text v.length
  have here := alike_getElem?_append blank text 0
  rw [← List.head?_eq_getElem?, ← List.head?_eq_getElem?] at here
  rw [StandsWhole, StandsWhole, solid.prefix_append_iff blank, isBoundary_congr left here,
    isBoundary_congr (left.lastOf v) next]

theorem front?_wholeWord_append {words : List String} (hp : wholeWord? words = some p)
    (solid : ∀ v ∈ words, SolidEnds v.toList) (left : Alike before before')
    (blank : ∀ c ∈ w, isBlank c = true) : p.front? before (text ++ w) = p.front? before' text := by
  have stands : ∀ v ∈ words,
      (StandsWhole before (text ++ w) v.toList ↔ StandsWhole before' text v.toList) :=
    fun v hv => standsWhole_append (solid v hv) left blank
  refine Option.ext fun m => ?_
  rw [front?_wholeWord hp, front?_wholeWord hp]
  refine and_congr_right ?_
  rintro ⟨v, hv, -, rfl⟩
  refine and_congr (stands v hv) ?_
  constructor
  · intro longest u hu nu su
    exact longest u hu nu ((stands u hu).2 su)
  · intro longest u hu nu su
    exact longest u hu nu ((stands u hu).1 su)

end LineTint.Pattern
