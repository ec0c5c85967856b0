import LineTint.Proofs.Numbers
import LineTint.Proofs.RuleMatches

/-!
# The extent of a number

Three repetitions and two word boundaries of the usual pattern for numbers leave one text for each
place (`front?_number_iff`): the whole run of digits there (`front?_digits_append`), for from a part
of a run the pattern goes on only if it does from all of it, and then what `Text.fractionText` says
of the text behind the run (`front?_behind_digits`).
-/

namespace LineTint
set_option autoImplicit false
open Text

/-! ## Where numbers stand -/

namespace Text

/-- What a number takes of the text behind its digits: a dot and a fraction in front of no word
character, or else a dot in front of a word character. -/
def fractionText : List Char → List Char
  | '.' :: text =>
    let digits := text.takeWhile Char.isDigit
    if digits ≠ [] ∧ (text.dropWhile Char.isDigit).head?.any isWord = false then '.' :: digits
    else if text.head?.any isWord then ['.']
    else []
  | _ => []

/-- What a number takes of a text: the digits at its front and what it takes behind them. -/
def numberText (text : List Char) : List Char :=
  text.takeWhile Char.isDigit ++ fractionText (text.dropWhile Char.isDigit)

/-- A number begins here: with a digit behind no word character, and behind the run of digits stands
a dot or no word character. -/
def BeginsNumber (before : Option Char) (text : List Char) : Prop :=
  text.head?.any Char.isDigit = true ∧ before.any isWord = false ∧
    ((text.dropWhile Char.isDigit).head? = some '.' ∨
      (text.dropWhile Char.isDigit).head?.any isWord = false)

/-- At an offset of the line a number begins, and what it takes ends at another. -/
def NumberAt (line : List Char) (start stop : Nat) : Prop :=
  ∃ a b, line = a ++ b ∧ byteLength a = start ∧ BeginsNumber (lastOf none a) b ∧
    stop = start + byteLength (numberText b)

/-- A text is its run of digits and something that does not begin with a digit. -/
theorem exists_run (text : List Char) : ∃ ds rest, text = ds ++ rest ∧
    text.takeWhile Char.isDigit = ds ∧ text.dropWhile Char.isDigit = rest ∧
    (∀ c ∈ ds, c.isDigit = true) ∧ rest.head?.any Char.isDigit = false := by
  refine ⟨_, _, List.takeWhile_append_dropWhile.symm, rfl, rfl,
    fun c hc => List.mem_takeWhile_imp hc, ?_⟩
  have stop := List.head?_dropWhile_not Char.isDigit text
  cases h : (text.dropWhile Char.isDigit).head? with
  | none => rfl
  | some c => simpa [h] using stop

end Text

namespace Pattern

variable {q : Pattern} {before : Option Char} {text m rest ds : List Char} {c : Char}

/-! ## Runs of digits -/

/-- From a character of the class a repetition goes on behind it, or else the pattern behind the
repetition begins there. -/
theorem front?_seq_more_cons {cls : CharClass} (has : cls.has c = true) (before : Option Char)
    (text : List Char) :
    (Pattern.seq (.more true (.char cls)) q).front? before (c :: text) =
      (((Pattern.seq (.more true (.char cls)) q).front? (some c) text).map (c :: ·)).or
        (q.front? before (c :: text)) := by
  simp only [front?_seq, fronts_more_char, if_true, List.takeWhile_cons, has, List.inits_cons,
    List.reverse_cons, List.findSome?_append, ← List.map_reverse, List.findSome?_map,
    List.map_findSome?]
  congr 1
  · refine congrArg (fun f => List.findSome? f _) (funext fun a => ?_)
    simp [Option.map_map, Function.comp_def]
  · simp

theorem front?_seq_more_of_not {cls : CharClass} (not : text.head?.any cls.has = false)
    (before : Option Char) :
    (Pattern.seq (.more true (.char cls)) q).front? before text = q.front? before text := by
  have none : text.takeWhile cls.has = [] := by
    cases text with
    | nil => rfl
    | cons c text => exact List.takeWhile_cons_of_neg (by simpa using not)
  simp [front?_seq, fronts_more_char, none]

/-- At least one round is a round and a repetition. -/
theorem front?_seq_plus_cons {cls : CharClass} (has : cls.has c = true) (before : Option Char)
    (text : List Char) :
    (Pattern.seq (.plus true (.char cls)) q).front? before (c :: text) =
      ((Pattern.seq (.more true (.char cls)) q).front? (some c) text).map (c :: ·) := by
  have rounds : (Pattern.plus true (.char cls)).fronts before (c :: text) =
      ((Pattern.more true (.char cls)).fronts (some c) text).map (c :: ·) := by
    simp [fronts_plus, fronts_char_cons, has, extend_cons]
  simp only [front?_seq, rounds, List.findSome?_map, List.map_findSome?]
  refine congrArg (fun f => List.findSome? f _) (funext fun a => ?_)
  simp [Option.map_map, Function.comp_def]

theorem has_asciiDigit_eq : CharClass.asciiDigit.has = Char.isDigit :=
  funext CharClass.has_asciiDigit

theorem front?_boundary (before : Option Char) (text : List Char) :
    (Pattern.anchor .boundary).front? before text =
      if isBoundary before text.head? then some [] else none := by
  rw [front?, fronts_anchor, Anchor.holds_boundary]
  split <;> rfl

/-- Without digits a fraction is a boundary. -/
theorem front?_fraction_of_not (stop : text.head?.any Char.isDigit = false)
    (before : Option Char) :
    fraction.front? before text = if isBoundary before text.head? then some [] else none := by
  rw [fraction, front?_seq_more_of_not (by rwa [has_asciiDigit_eq]), front?_boundary]

theorem front?_fraction_cons (digit : c.isDigit = true) (before : Option Char)
    (text : List Char) :
    fraction.front? before (c :: text) = ((fraction.front? (some c) text).map (c :: ·)).or
      (if isBoundary before (some c) then some [] else none) := by
  rw [fraction, front?_seq_more_cons (by rwa [has_asciiDigit_eq]), front?_boundary, List.head?_cons]

/-- Behind a word character a fraction is all the digits that follow, or nothing. -/
theorem front?_fraction_append (word : before.any isWord = true)
    (digits : ∀ c ∈ ds, c.isDigit = true) (stop : rest.head?.any Char.isDigit = false) :
    fraction.front? before (ds ++ rest) =
      if rest.head?.any isWord then none else some ds := by
  induction ds generalizing before with
  | nil =>
    rw [List.nil_append, front?_fraction_of_not stop, isBoundary_of_isWord word]
    cases rest.head?.any isWord <;> rfl
  | cons c ds ih =>
    obtain ⟨digit, digits⟩ := List.forall_mem_cons.1 digits
    have next : (some c).any isWord = true := isWord_of_isDigit digit
    -- Between two digits is no boundary.
    rw [List.cons_append, front?_fraction_cons digit, ih next digits, isBoundary_of_isWord word,
      next]
    cases rest.head?.any isWord <;> rfl

/-- Behind a dot a fraction is all the digits that follow, or nothing in front of a word. -/
theorem front?_fraction_behind_dot (text : List Char) :
    fraction.front? (some '.') text =
      if text.takeWhile Char.isDigit ≠ [] ∧
        (text.dropWhile Char.isDigit).head?.any isWord = false then
        some (text.takeWhile Char.isDigit)
      else if text.head?.any isWord then some [] else none := by
  have dot : (some '.').any isWord = false := by decide
  obtain ⟨ds, rest, rfl, run, behind, digits, stop⟩ := exists_run text
  rw [run, behind]
  cases ds with
  | nil =>
    rw [List.nil_append, front?_fraction_of_not stop, isBoundary_of_not_isWord dot]
    simp
  | cons c ds =>
    obtain ⟨digit, digits⟩ := List.forall_mem_cons.1 digits
    have word : (some c).any isWord = true := isWord_of_isDigit digit
    rw [List.cons_append, front?_fraction_cons digit, front?_fraction_append word digits stop,
      isBoundary_of_not_isWord dot, List.head?_cons, word]
    cases rest.head?.any isWord <;> simp

/-! ## Numbers -/

/-- A fraction may have a dot in front of it. -/
theorem front?_optional_dot_cons (before : Option Char) (c : Char) (text : List Char) :
    (Pattern.seq (.alt (.char (.single '.')) .empty) fraction).front? before (c :: text) =
      (if c = '.' then (fraction.front? (some '.') text).map ('.' :: ·) else none).or
        (fraction.front? before (c :: text)) := by
  rw [front?_seq, fronts_alt, fronts_char_cons, fronts_empty, has_single, List.findSome?_append]
  by_cases dot : c = '.'
  · subst dot
    simp
  · simp [dot]

/-- Behind its digits a number goes on where a dot or no word character stands. -/
theorem front?_behind_digits (word : before.any isWord = true)
    (stop : rest.head?.any Char.isDigit = false) :
    (Pattern.seq (.alt (.char (.single '.')) .empty) fraction).front? before rest =
      if rest.head? = some '.' ∨ rest.head?.any isWord = false then some (fractionText rest)
      else none := by
  have plain := front?_fraction_of_not stop before
  rw [isBoundary_of_isWord word] at plain
  cases rest with
  | nil => simp [front?_seq, fronts_alt, fronts_char_nil, plain, fractionText]
  | cons c text =>
    rw [front?_optional_dot_cons, plain]
    by_cases dot : c = '.'
    · subst dot
      rw [if_pos rfl, front?_fraction_behind_dot, fractionText]
      have noWord : isWord '.' = false := by decide
      split_ifs <;> simp_all
    · have nothing : fractionText (c :: text) = [] := by
        unfold fractionText
        split
        · exact absurd (List.cons.inj ‹_›).1 dot
        · rfl
      rw [if_neg dot, nothing]
      simp [dot]

/-- **A number goes on behind the whole run** of its digits. -/
theorem front?_digits_append (word : before.any isWord = true)
    (digits : ∀ c ∈ ds, c.isDigit = true) (stop : rest.head?.any Char.isDigit = false) :
    (Pattern.seq (.more true (.char .asciiDigit))
        (.seq (.alt (.char (.single '.')) .empty) fraction)).front? before (ds ++ rest) =
      if rest.head? = some '.' ∨ rest.head?.any isWord = false then some (ds ++ fractionText rest)
      else none := by
  induction ds generalizing before with
  | nil =>
    rw [List.nil_append, front?_seq_more_of_not (by rwa [has_asciiDigit_eq]),
      front?_behind_digits word stop]
    rfl
  | cons c ds ih =>
    obtain ⟨digit, later⟩ := List.forall_mem_cons.1 digits
    have next : (some c).any isWord = true := isWord_of_isDigit digit
    have noDot : c ≠ '.' := by
      rintro rfl
      exact absurd digit (by decide)
    rw [List.cons_append, front?_seq_more_cons (by rwa [has_asciiDigit_eq]),
      ih next later, front?_optional_dot_cons, if_neg noDot, ← List.cons_append,
      front?_fraction_append word digits stop]
    by_cases goesOn : rest.head? = some '.' ∨ rest.head?.any isWord = false
    · rw [if_pos goesOn, if_pos goesOn]
      rfl
    · -- A part of the run would have to be followed by its rest, and that by a boundary.
      have glued : rest.head?.any isWord = true := by simpa using (not_or.1 goesOn).2
      rw [if_neg goesOn, if_neg goesOn, if_pos glued]
      rfl

theorem front?_boundary_seq (q : Pattern) (before : Option Char) (text : List Char) :
    (Pattern.seq (.anchor .boundary) q).front? before text =
      if isBoundary before text.head? then q.front? before text else none := by
  rw [front?_seq, fronts_anchor, Anchor.holds_boundary]
  split <;> simp

/-- **The best number of a place** is there where a number begins, and is what it takes. -/
theorem front?_number_iff :
    number.front? before text = some m ↔ BeginsNumber before text ∧ m = numberText text := by
  obtain ⟨ds, rest, rfl, run, behind, digits, stop⟩ := exists_run text
  rw [BeginsNumber, numberText, run, behind]
  cases ds with
  | nil =>
    rw [List.nil_append]
    refine iff_of_false (fun best => ?_) fun begins => absurd stop (by simp [begins.1.1])
    obtain ⟨c, n, rfl, digit⟩ := exists_of_mem_number (mem_fronts_of_front? best)
    obtain ⟨t, rfl⟩ := prefix_of_mem_fronts (mem_fronts_of_front? best)
    rw [CharClass.has_asciiDigit] at digit
    exact absurd stop (by simp [digit])
  | cons c ds =>
    obtain ⟨digit, later⟩ := List.forall_mem_cons.1 digits
    have word : (some c).any isWord = true := isWord_of_isDigit digit
    rw [number, front?_boundary_seq, List.cons_append, front?_seq_plus_cons
      (by rwa [has_asciiDigit_eq]), ← fraction, front?_digits_append word later stop,
      List.head?_cons, isBoundary, word, Option.any_some, digit]
    cases before.any isWord with
    | true => simp
    | false =>
      by_cases goesOn : rest.head? = some '.' ∨ rest.head?.any isWord = false
      · rw [if_pos goesOn]
        simp only [goesOn, Bool.false_bne, if_true, Option.map_some, Option.some.injEq, true_and]
        exact eq_comm
      · simp [goesOn]

/-- In front of a letter a fraction is given up, and the dot is kept. -/
example : number.front? none "12.5x".toList = some "12.".toList := by decide

theorem matchAt_number (line : List Char) (start stop : Nat) :
    number.MatchAt line start stop ↔ NumberAt line start stop := by
  constructor
  · rintro ⟨a, b, m, rfl, rfl, best, rfl⟩
    obtain ⟨begins, rfl⟩ := front?_number_iff.1 best
    exact ⟨a, b, rfl, rfl, begins, rfl⟩
  · rintro ⟨a, b, rfl, rfl, begins, rfl⟩
    exact ⟨a, b, numberText b, rfl, rfl, front?_number_iff.2 ⟨begins, rfl⟩, rfl⟩

/-- **The usual rule of numbers** is always there, and a search finds the first place from its
offset on where a number begins, and what it takes there. -/
theorem number_matches : RuleMatches (read? Lexicon.defaultNumberPattern) False NumberAt := by
  rw [read?_defaultNumberPattern]
  refine ⟨by simp, fun p h line => ?_⟩
  obtain rfl := Option.some.inj h
  refine (findsLeftmost (fun before => ?_) line).congr (matchAt_number line)
  rw [Option.eq_none_iff_forall_ne_some]
  intro m best
  exact absurd (front?_number_iff.1 best).1.1 (by simp)

end Pattern
end LineTint
