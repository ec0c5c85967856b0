import LineTint.Proofs.BestFront
import LineTint.Proofs.Provenance
import LineTint.Proofs.ReservedWords

/-!
# Number spans

A number of a language is digits, perhaps a dot, and perhaps more digits, between two word
boundaries. Behind a digit the closing boundary keeps letters away; behind a dot it asks for one.
So a number span is a numeral with no word character at either side (`Span.WholeNumber`), but for
one that ends in its dot because what follows the dot is glued to a letter (`Span.CutAtDot`):
`Highlighter.wholeNumber_iff`.
-/

namespace LineTint
set_option autoImplicit false
open Pattern Text

/-- ASCII digits, at least one. -/
def Text.Digits (cs : List Char) : Prop :=
  cs ≠ [] ∧ ∀ c ∈ cs, c.isDigit = true

/-- Digits, or digits with one dot between them. -/
def Text.Numeral (cs : List Char) : Prop :=
  Digits cs ∨ ∃ ds fs, cs = ds ++ '.' :: fs ∧ Digits ds ∧ Digits fs

/-- A text that begins with digits, perhaps none, and then has another word character. -/
def Text.GluedWord (cs : List Char) : Prop :=
  ∃ fs c t, cs = fs ++ c :: t ∧ (∀ d ∈ fs, d.isDigit = true) ∧ c.isDigit = false ∧ isWord c = true

/-- The span is a numeral, and no word character touches it. -/
structure Span.WholeNumber (line : String) (s : Span) : Prop where
  numeral : Numeral (s.text line)
  left : (s.left line).getLast?.any isWord = false
  right : (s.right line).head?.any isWord = false

/-- The span is digits and a dot, and behind the dot stands a word that is no fraction. -/
structure Span.CutAtDot (line : String) (s : Span) : Prop where
  digits : ∃ ds, s.text line = ds ++ ['.'] ∧ Digits ds
  glued : GluedWord (s.right line)

/-! ## Boundaries -/

namespace Text

theorem isWord_of_isDigit {c : Char} (h : c.isDigit = true) : isWord c = true := by
  rw [← CharClass.has_asciiDigit] at h
  exact CharClass.isWord_of_asciiDigit h

theorem Digits.lastOf_isWord {cs : List Char} (h : Digits cs) (before : Option Char) :
    (lastOf before cs).any isWord = true :=
  Wordlike.lastOf_isWord ⟨h.1, fun c hc => isWord_of_isDigit (h.2 c hc)⟩ before

theorem Digits.head?_isWord {cs : List Char} (h : Digits cs) (t : List Char) :
    (cs ++ t).head?.any isWord = true := by
  obtain ⟨ne, digits⟩ := h
  obtain ⟨c, cs, rfl⟩ := List.exists_cons_of_ne_nil ne
  exact isWord_of_isDigit (digits c List.mem_cons_self)

theorem GluedWord.head?_isWord {cs : List Char} (h : GluedWord cs) :
    cs.head?.any isWord = true := by
  obtain ⟨fs, c, t, rfl, digits, -, word⟩ := h
  by_cases nil : fs = []
  · subst nil
    exact word
  · exact Digits.head?_isWord ⟨nil, digits⟩ (c :: t)

end Text

namespace Pattern

variable {before : Option Char} {text m : List Char}

theorem digits_iff {cs : List Char} :
    (∀ c ∈ cs, CharClass.asciiDigit.has c = true) ↔ ∀ c ∈ cs, c.isDigit = true := by
  simp only [CharClass.has_asciiDigit]

/-- The digits behind the dot of a number, or none, up to the boundary that ends it. -/
def fraction : Pattern :=
  .seq (.more true (.char .asciiDigit)) (.anchor .boundary)

/-- A number is digits and then what the rest of the pattern takes. -/
theorem front?_number (h : number.front? before text = some m) :
    ∃ ds n, m = ds ++ n ∧ Digits ds ∧ ds <+: text ∧ isBoundary before text.head? = true ∧
      (Pattern.seq (.alt (.char (.single '.')) .empty) fraction).front? (lastOf before ds)
        (text.drop ds.length) = some n := by
  rw [number, front?_seq] at h
  obtain ⟨_, opening, h⟩ := List.exists_of_findSome?_eq_some h
  obtain ⟨rfl, begins⟩ := mem_fronts_anchor.1 opening
  obtain ⟨m, inner, rfl⟩ := Option.map_eq_some_iff.1 h
  rw [front?_seq] at inner
  obtain ⟨ds, digits, inner⟩ := List.exists_of_findSome?_eq_some inner
  obtain ⟨n, rest, rfl⟩ := Option.map_eq_some_iff.1 inner
  obtain ⟨ne, front, all⟩ := mem_fronts_plus_char.1 digits
  exact ⟨ds, n, rfl, ⟨ne, digits_iff.1 all⟩, front, begins, rest⟩

/-- Behind the digits stands the fraction, with a dot in front of it or without one. -/
theorem front?_optional_dot
    (h : (Pattern.seq (.alt (.char (.single '.')) .empty) fraction).front? before text = some m) :
    fraction.front? before text = some m ∨
      ∃ t n, text = '.' :: t ∧ m = '.' :: n ∧ fraction.front? (some '.') t = some n := by
  rw [front?_seq] at h
  obtain ⟨dot, mem, h⟩ := List.exists_of_findSome?_eq_some h
  obtain ⟨n, behind, rfl⟩ := Option.map_eq_some_iff.1 h
  rw [fronts_alt, fronts_empty, List.mem_append, List.mem_singleton, mem_fronts_char] at mem
  rcases mem with ⟨c, rfl, has, t, rfl⟩ | rfl
  · rw [has_single, decide_eq_true_eq] at has
    subst has
    exact .inr ⟨t, n, rfl, rfl, behind⟩
  · exact .inl behind

/-- A fraction is digits with a boundary behind them, and no more digits have one. -/
theorem front?_fraction (h : fraction.front? before text = some m) :
    (∀ c ∈ m, c.isDigit = true) ∧
      isBoundary (lastOf before m) (text.drop m.length).head? = true ∧
      ∀ fs, fs <+: text → (∀ c ∈ fs, c.isDigit = true) → m.length < fs.length →
        isBoundary (lastOf before fs) (text.drop fs.length).head? = false := by
  obtain ⟨fs, n, rfl, ⟨-, digits⟩, closing, longest⟩ := front?_seq_more_char h
  obtain ⟨rfl, ends⟩ := mem_fronts_anchor.1 (mem_fronts_of_front? closing)
  rw [List.append_nil]
  refine ⟨digits_iff.1 digits, ends, fun gs front digits' longer => ?_⟩
  exact front?_anchor_eq_none_iff.1 (longest gs front (digits_iff.2 digits') longer)

/-- A dot is the end of a number where a word begins that is no fraction. -/
theorem gluedWord_of_front? {b : List Char} (h : fraction.front? (some '.') b = some []) :
    GluedWord b := by
  obtain ⟨-, ends, longest⟩ := front?_fraction h
  have run : b.takeWhile Char.isDigit ++ b.dropWhile Char.isDigit = b :=
    List.takeWhile_append_dropWhile
  have digits : ∀ c ∈ b.takeWhile Char.isDigit, c.isDigit = true :=
    fun c hc => List.mem_takeWhile_imp hc
  have stop := List.head?_dropWhile_not Char.isDigit b
  generalize b.takeWhile Char.isDigit = fs at run digits
  generalize b.dropWhile Char.isDigit = rest at run stop
  subst run
  have word : rest.head?.any isWord = true := by
    by_cases nil : fs = []
    · subst nil
      rw [lastOf_nil, isBoundary_of_not_isWord (by decide)] at ends
      exact ends
    · -- With a boundary behind them all the digits would be the fraction.
      have fails := longest fs (List.prefix_append fs rest) digits (List.length_pos_iff.2 nil)
      rw [isBoundary_of_isWord (Digits.lastOf_isWord ⟨nil, digits⟩ _), List.drop_left] at fails
      simpa using fails
  cases rest with
  | nil => exact absurd word (by simp)
  | cons c t => exact ⟨fs, c, t, rfl, digits, stop, word⟩

/-- **The best number of a place** begins behind no word character, and is a numeral in front of
none or ends in its dot. -/
theorem number_cases {b : List Char} (h : number.front? before (m ++ b) = some m) :
    before.any isWord = false ∧
      (Numeral m ∧ b.head?.any isWord = false ∨
        (∃ ds, m = ds ++ ['.'] ∧ Digits ds) ∧ GluedWord b) := by
  obtain ⟨ds, n, rfl, hds, -, begins, rest⟩ := front?_number h
  have left : before.any isWord = false := by
    rw [List.append_assoc, isBoundary, hds.head?_isWord (n ++ b), Bool.bne_true] at begins
    simpa using begins
  refine ⟨left, ?_⟩
  rw [List.append_assoc, List.drop_left] at rest
  rcases front?_optional_dot rest with plain | ⟨t, k, text, rfl, behind⟩
  · obtain ⟨digits, ends, -⟩ := front?_fraction plain
    have all : Digits (ds ++ n) :=
      ⟨List.append_ne_nil_of_left_ne_nil hds.1 n, List.forall_mem_append.2 ⟨hds.2, digits⟩⟩
    rw [← lastOf_append, isBoundary_of_isWord (all.lastOf_isWord before), List.drop_left] at ends
    exact .inl ⟨.inl all, by simpa using ends⟩
  · obtain rfl : k ++ b = t := (List.cons.inj text).2
    by_cases nil : k = []
    · subst nil
      exact .inr ⟨⟨ds, rfl, hds⟩, gluedWord_of_front? behind⟩
    · obtain ⟨digits, ends, -⟩ := front?_fraction behind
      rw [isBoundary_of_isWord (Digits.lastOf_isWord ⟨nil, digits⟩ _), List.drop_left] at ends
      exact .inl ⟨.inr ⟨ds, k, rfl, hds, nil, digits⟩, by simpa using ends⟩

end Pattern

/-! ## The spans of a line -/

namespace Highlighter

variable {l : Language} {line : String} {s : Span}

/-- **A number span** begins behind no word character, and it is a whole numeric word exactly if
it is not cut at its dot. -/
theorem wholeNumber_iff (hs : s ∈ (ofLanguage l).spans line) (number : s.kind = .number) :
    (s.left line).getLast?.any isWord = false ∧ (s.WholeNumber line ↔ ¬s.CutAtDot line) := by
  cases origin_of_kind hs number (by decide) with
  | number rule best =>
    rw [l.usual_numbers, read?_defaultNumberPattern] at rule
    obtain rfl := Option.some.inj rule
    obtain ⟨left, ends⟩ := number_cases best
    refine ⟨left, ?_⟩
    rcases ends with ⟨numeral, right⟩ | ⟨digits, glued⟩
    · refine iff_of_true ⟨numeral, left, right⟩ fun cut => ?_
      exact absurd cut.glued.head?_isWord (by simp [right])
    · refine iff_of_false (fun whole => ?_) (not_not_intro ⟨digits, glued⟩)
      exact absurd glued.head?_isWord (by simp [whole.right])

/-- A number at the front of a line is its first span. -/
theorem mem_spans_of_number {m b : List Char}
    (code : (ofLanguage l).isComment line.toList = false) (e : line.toList = m ++ b)
    (best : number.front? none (m ++ b) = some m) :
    ⟨0, byteLength m, .number⟩ ∈ (ofLanguage l).spans line := by
  obtain ⟨ds, n, shape, ⟨ne, digits⟩, -⟩ := front?_number best
  obtain ⟨c, ds, rfl⟩ := List.exists_cons_of_ne_nil ne
  have digit := digits c List.mem_cons_self
  have noMark : c ∉ l.lexicon.delimiters := by
    rw [l.mem_delimiters]
    rintro (rfl | rfl) <;> exact absurd digit (by decide)
  have noString :
      Lexicon.tokenOf? .string (delimited? l.lexicon.delimiters) none (m ++ b) = none := by
    rw [shape]
    exact Lexicon.tokenOf?_string_eq_none noMark
  have found : Lexicon.tokenOf? .number (read? l.lexicon.numberPattern) none (m ++ b) =
      some (.number, m) := by
    rw [l.usual_numbers]
    exact Lexicon.tokenOf?_eq_some_iff.2
      ⟨rfl, by simp [shape], number, read?_defaultNumberPattern, best⟩
  have here : Scan.token? (ofLanguage l).rules none (m ++ b) = some (.number, m) := by
    show Scan.token? l.lexicon.rules none (m ++ b) = _
    rw [Lexicon.token?_rules, noString, found]
    rfl
  exact mem_spans_of_token? code e here

theorem fraction_wholeNumber :
    ⟨0, 4, .number⟩ ∈ (ofLanguage .kotlin).spans "3.14;" ∧
      Span.WholeNumber "3.14;" ⟨0, 4, .number⟩ := by
  have mem : ⟨0, 4, .number⟩ ∈ (ofLanguage .kotlin).spans "3.14;" :=
    mem_spans_of_number (m := "3.14".toList) (b := [';']) (by decide) (by decide) (by decide)
  have notCut : ¬Span.CutAtDot "3.14;" ⟨0, 4, .number⟩ :=
    fun cut => absurd cut.glued.head?_isWord (by decide)
  exact ⟨mem, (wholeNumber_iff mem rfl).2.2 notCut⟩

/-- A letter behind the dot of a number keeps the dot in its span. -/
theorem dot_not_wholeNumber :
    ⟨0, 2, .number⟩ ∈ (ofLanguage .kotlin).spans "1.a" ∧
      ¬Span.WholeNumber "1.a" ⟨0, 2, .number⟩ := by
  have mem : ⟨0, 2, .number⟩ ∈ (ofLanguage .kotlin).spans "1.a" :=
    mem_spans_of_number (m := "1.".toList) (b := ['a']) (by decide) (by decide) (by decide)
  exact ⟨mem, fun whole => absurd whole.right (by decide)⟩

end Highlighter
end LineTint
