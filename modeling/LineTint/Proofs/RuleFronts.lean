import LineTint.Proofs.Characters
import LineTint.Proofs.Scanned
import LineTint.Proofs.WholeWord
import Mathlib.Data.List.Infix
import Mathlib.Data.List.TakeWhile

/-!
# What the rules of a lexicon match

The fronts of the patterns that lexicons use: texts between delimiters (`mem_fronts_delimited`)
and numbers as languages write them (`mem_fronts_number`); the words are in
`front?_wholeWord`. Both go back to the rounds of one character class, which are the fronts of
its longest run (`fronts_more_char`). `Lexicon.token?_cases` puts them together: where the token
of a place comes from.
-/

namespace LineTint.Pattern
set_option autoImplicit false
open Text

variable {before : Option Char} {text m : List Char}

/-! ## Rounds of a character class -/

/-- The rounds of a class are the fronts of its run at the place. -/
theorem fronts_more_char (greedy : Bool) (cls : CharClass) (before : Option Char)
    (text : List Char) :
    (Pattern.more greedy (.char cls)).fronts before text =
      if greedy then (text.takeWhile cls.has).inits.reverse
      else (text.takeWhile cls.has).inits := by
  induction text generalizing before with
  | nil => cases greedy <;> simp [fronts_more, fronts_char_nil]
  | cons c text ih =>
    rw [fronts_more, fronts_char_cons]
    cases has : cls.has c with
    | false => cases greedy <;> simp [has]
    | true =>
      have rounds : ([[c]].flatMap fun a =>
          if a = [] then [] else (Pattern.more greedy (.char cls)).extend before (c :: text) a) =
          ((Pattern.more greedy (.char cls)).fronts (some c) text).map (c :: ·) := by
        simp [extend_cons]
      simp only [if_true, rounds, ih, List.takeWhile_cons, has, List.inits_cons]
      cases greedy <;> simp

theorem mem_fronts_more_char {greedy : Bool} {cls : CharClass} :
    m ∈ (Pattern.more greedy (.char cls)).fronts before text ↔
      m <+: text ∧ ∀ c ∈ m, cls.has c = true := by
  have run : m ∈ (Pattern.more greedy (.char cls)).fronts before text ↔
      m <+: text.takeWhile cls.has := by
    rw [fronts_more_char]
    cases greedy <;> simp [List.mem_inits]
  rw [run]
  constructor
  · intro h
    exact ⟨h.trans (List.takeWhile_prefix _), fun c hc => List.mem_takeWhile_imp (h.subset hc)⟩
  · rintro ⟨⟨b, rfl⟩, all⟩
    rw [List.takeWhile_append_of_pos all]
    exact List.prefix_append m _

theorem mem_fronts_anchor {a : Anchor} :
    m ∈ (Pattern.anchor a).fronts before text ↔ m = [] ∧ a.holds before text.head? = true := by
  rw [fronts_anchor]
  cases a.holds before text.head? <;> simp

theorem mem_fronts_char {cls : CharClass} :
    m ∈ (Pattern.char cls).fronts before text ↔ ∃ c, m = [c] ∧ cls.has c = true ∧ [c] <+: text := by
  cases text with
  | nil => simp [fronts_char_nil]
  | cons d text =>
    rw [fronts_char_cons]
    cases has : cls.has d with
    | false =>
      simp only [Bool.false_eq_true, if_false, List.not_mem_nil, false_iff]
      rintro ⟨c, rfl, hc, front⟩
      obtain rfl := (List.cons_prefix_cons.1 front).1
      exact absurd (hc.symm.trans has) (by simp)
    | true =>
      simp only [if_true, List.mem_singleton]
      constructor
      · rintro rfl
        exact ⟨d, rfl, has, List.prefix_append [d] text⟩
      · rintro ⟨c, rfl, -, front⟩
        rw [(List.cons_prefix_cons.1 front).1]

theorem mem_fronts_seq {p q : Pattern} :
    m ∈ (Pattern.seq p q).fronts before text ↔ ∃ a b, m = a ++ b ∧ a ∈ p.fronts before text ∧
      b ∈ q.fronts (lastOf before a) (text.drop a.length) := by
  rw [fronts_seq, List.mem_flatMap]
  constructor
  · rintro ⟨a, ha, h⟩
    obtain ⟨b, hb, rfl⟩ := List.mem_map.1 h
    exact ⟨a, b, rfl, ha, hb⟩
  · rintro ⟨a, b, rfl, ha, hb⟩
    exact ⟨a, ha, List.mem_map.2 ⟨b, hb, rfl⟩⟩

theorem mem_fronts_plus_char {greedy : Bool} {cls : CharClass} :
    m ∈ (Pattern.plus greedy (.char cls)).fronts before text ↔
      m ≠ [] ∧ m <+: text ∧ ∀ c ∈ m, cls.has c = true := by
  rw [fronts_plus, List.mem_flatMap]
  constructor
  · rintro ⟨a, ha, h⟩
    obtain ⟨c, rfl, has, t, rfl⟩ := mem_fronts_char.1 ha
    simp only [List.cons_ne_nil, if_false, extend] at h
    obtain ⟨b, hb, rfl⟩ := List.mem_map.1 h
    obtain ⟨front, all⟩ := mem_fronts_more_char.1 hb
    refine ⟨List.cons_ne_nil c b, List.cons_prefix_cons.2 ⟨rfl, front⟩, ?_⟩
    exact List.forall_mem_cons.2 ⟨has, all⟩
  · rintro ⟨ne, ⟨t, rfl⟩, all⟩
    obtain ⟨c, b, rfl⟩ := List.exists_cons_of_ne_nil ne
    obtain ⟨has, all⟩ := List.forall_mem_cons.1 all
    refine ⟨[c], mem_fronts_char.2 ⟨c, rfl, has, List.prefix_append [c] (b ++ t)⟩, ?_⟩
    simp only [List.cons_ne_nil, if_false, extend]
    exact List.mem_map.2 ⟨b, mem_fronts_more_char.2 ⟨List.prefix_append b t, all⟩, rfl⟩

/-! ## Strings and numbers -/

theorem eq_of_delimited? {ds : List Char} {p : Pattern} (h : delimited? ds = some p) :
    p = .seq (.char (.ofList ds))
      (.seq (.more false (.char notNewline)) (.char (.ofList ds))) := by
  cases ds with
  | nil => exact absurd h (by simp [delimited?])
  | cons d ds => exact (Option.some.inj h).symm

/-- A string opens and closes with a delimiter and has no newline between them. -/
theorem mem_fronts_delimited {ds : List Char} {p : Pattern} (h : delimited? ds = some p) :
    m ∈ p.fronts before text ↔
      m <+: text ∧ ∃ d mid e, m = d :: (mid ++ [e]) ∧ d ∈ ds ∧ e ∈ ds ∧ '\n' ∉ mid := by
  have free : ∀ cs : List Char, (∀ c ∈ cs, notNewline.has c = true) ↔ '\n' ∉ cs := by
    intro cs
    simp only [notNewline, CharClass.has, has_single, Bool.not_eq_true', decide_eq_false_iff_not]
    constructor
    · intro all mem
      exact all '\n' mem rfl
    · rintro notMem c hc rfl
      exact notMem hc
  obtain rfl := eq_of_delimited? h
  constructor
  · intro hm
    refine ⟨prefix_of_mem_fronts hm, ?_⟩
    obtain ⟨_, _, rfl, opening, rest⟩ := mem_fronts_seq.1 hm
    obtain ⟨mid, _, rfl, middle, closing⟩ := mem_fronts_seq.1 rest
    obtain ⟨d, rfl, hd, -⟩ := mem_fronts_char.1 opening
    obtain ⟨e, rfl, he, -⟩ := mem_fronts_char.1 closing
    rw [CharClass.has_ofList, decide_eq_true_eq] at hd he
    exact ⟨d, mid, e, rfl, hd, he, (free mid).1 (mem_fronts_more_char.1 middle).2⟩
  · rintro ⟨⟨t, rfl⟩, d, mid, e, rfl, hd, he, hmid⟩
    have opening : (CharClass.ofList ds).has d = true := by
      rw [CharClass.has_ofList]
      exact decide_eq_true hd
    have closing : (CharClass.ofList ds).has e = true := by
      rw [CharClass.has_ofList]
      exact decide_eq_true he
    refine mem_fronts_seq.2 ⟨[d], mid ++ [e], rfl, mem_fronts_char.2 ⟨d, rfl, opening, ?_⟩, ?_⟩
    · exact List.cons_prefix_cons.2 ⟨rfl, List.nil_prefix⟩
    · refine mem_fronts_seq.2 ⟨mid, [e], rfl, mem_fronts_more_char.2 ⟨?_, (free mid).2 hmid⟩,
        mem_fronts_char.2 ⟨e, rfl, closing, ?_⟩⟩ <;> simp

/-- A number: digits, perhaps a dot, and perhaps more digits, between two word boundaries. -/
def number : Pattern :=
  .seq (.anchor .boundary) (.seq (.plus true (.char .asciiDigit))
    (.seq (.alt (.char (.single '.')) .empty)
      (.seq (.more true (.char .asciiDigit)) (.anchor .boundary))))

theorem read?_defaultNumberPattern : read? Lexicon.defaultNumberPattern = some number := rfl

theorem mem_fronts_number :
    m ∈ number.fronts before text ↔ m <+: text ∧ isBoundary before text.head? = true ∧
      isBoundary (lastOf before m) text[m.length]? = true ∧
      ∃ ds dot fs, m = ds ++ (dot ++ fs) ∧ ds ≠ [] ∧
        (∀ c ∈ ds ++ fs, CharClass.asciiDigit.has c = true) ∧ (dot = ['.'] ∨ dot = []) := by
  have optional : ∀ {before text dot},
      dot ∈ (Pattern.alt (.char (.single '.')) .empty).fronts before text ↔
        dot <+: text ∧ (dot = ['.'] ∨ dot = []) := by
    intro before text dot
    rw [fronts_alt, fronts_empty, List.mem_append, List.mem_singleton, mem_fronts_char]
    simp only [has_single, decide_eq_true_eq]
    constructor
    · rintro (⟨c, rfl, rfl, front⟩ | rfl)
      · exact ⟨front, .inl rfl⟩
      · exact ⟨List.nil_prefix, .inr rfl⟩
    · rintro ⟨front, rfl | rfl⟩
      · exact .inl ⟨'.', rfl, rfl, front⟩
      · exact .inr rfl
  constructor
  · intro hm
    have front := prefix_of_mem_fronts hm
    obtain ⟨_, _, rfl, opening, rest⟩ := mem_fronts_seq.1 hm
    obtain ⟨rfl, begins⟩ := mem_fronts_anchor.1 opening
    obtain ⟨ds, _, rfl, digits, rest⟩ := mem_fronts_seq.1 rest
    obtain ⟨dot, _, rfl, hdot, rest⟩ := mem_fronts_seq.1 rest
    obtain ⟨fs, _, rfl, fraction, closing⟩ := mem_fronts_seq.1 rest
    obtain ⟨rfl, ends⟩ := mem_fronts_anchor.1 closing
    obtain ⟨ne, -, hds⟩ := mem_fronts_plus_char.1 digits
    obtain ⟨-, hfs⟩ := mem_fronts_more_char.1 fraction
    obtain ⟨-, hdot⟩ := optional.1 hdot
    refine ⟨front, begins, ?_, ds, dot, fs, by simp, ne, ?_, hdot⟩
    · simpa [Anchor.holds_boundary, List.head?_drop, List.getElem?_drop, Nat.add_assoc] using ends
    · exact List.forall_mem_append.2 ⟨hds, hfs⟩
  · rintro ⟨⟨t, rfl⟩, begins, ends, ds, dot, fs, rfl, ne, digits, hdot⟩
    obtain ⟨hds, hfs⟩ := List.forall_mem_append.1 digits
    refine mem_fronts_seq.2 ⟨[], _, rfl, mem_fronts_anchor.2 ⟨rfl, begins⟩, ?_⟩
    refine mem_fronts_seq.2 ⟨ds, dot ++ fs, rfl, mem_fronts_plus_char.2 ⟨ne, ?_, hds⟩, ?_⟩
    · simp
    refine mem_fronts_seq.2 ⟨dot, fs, rfl, optional.2 ⟨by simp, hdot⟩, ?_⟩
    refine mem_fronts_seq.2 ⟨fs, [], by simp, mem_fronts_more_char.2 ⟨by simp, hfs⟩, ?_⟩
    rw [List.getElem?_append_right (Nat.le_refl _), Nat.sub_self, ← List.head?_eq_getElem?] at ends
    exact mem_fronts_anchor.2 ⟨rfl, by simpa [Anchor.holds_boundary] using ends⟩

/-- A number begins with a digit. -/
theorem exists_of_mem_number (h : m ∈ number.fronts before text) :
    ∃ c n, m = c :: n ∧ CharClass.asciiDigit.has c = true := by
  obtain ⟨-, -, -, ds, dot, fs, rfl, ne, digits, -⟩ := mem_fronts_number.1 h
  obtain ⟨c, ds, rfl⟩ := List.exists_cons_of_ne_nil ne
  exact ⟨c, ds ++ (dot ++ fs), rfl, digits c List.mem_cons_self⟩

/-- A number has no blank. -/
theorem isBlank_of_mem_number (h : m ∈ number.fronts before text) {c : Char} (hc : c ∈ m) :
    isBlank c = false := by
  obtain ⟨-, -, -, ds, dot, fs, rfl, -, digits, hdot⟩ := mem_fronts_number.1 h
  rcases List.mem_append.1 hc with hc | hc
  · exact CharClass.isBlank_of_asciiDigit (digits c (List.mem_append_left fs hc))
  rcases List.mem_append.1 hc with hc | hc
  · rcases hdot with rfl | rfl
    · obtain rfl := List.mem_singleton.1 hc
      decide
    · exact absurd hc (by simp)
  · exact CharClass.isBlank_of_asciiDigit (digits c (List.mem_append_right ds hc))

end LineTint.Pattern

/-! ## The tokens of a lexicon -/

namespace LineTint.Lexicon
set_option autoImplicit false
open Pattern Text

variable {x : Lexicon} {before : Option Char} {rest m : List Char} {k : TokenKind}

/-- The words that a lexicon lists. -/
def words (x : Lexicon) : List String := x.keywords ++ x.types ++ x.builtins

/-- The token of a pattern, where a lexicon has that pattern. -/
def tokenOf? (k : TokenKind) (p : Option Pattern) (before : Option Char) (rest : List Char) :
    Option (TokenKind × List Char) :=
  p.bind fun p => (Rule.mk k p).token? before rest

theorem tokenOf?_eq_some_iff {k' : TokenKind} {p : Option Pattern} :
    tokenOf? k p before rest = some (k', m) ↔
      k' = k ∧ m ≠ [] ∧ ∃ q, p = some q ∧ q.front? before rest = some m := by
  simp only [tokenOf?, Option.bind_eq_some_iff, Rule.token?_eq_some_iff]
  constructor
  · rintro ⟨q, rfl, rfl, front, ne⟩
    exact ⟨rfl, ne, q, rfl, front⟩
  · rintro ⟨rfl, ne, q, rfl, front⟩
    exact ⟨q, rfl, rfl, front, ne⟩

theorem tokenOf?_string_eq_none {c : Char} (mark : c ∉ x.delimiters) :
    tokenOf? .string (delimited? x.delimiters) before (c :: rest) = none := by
  rw [Option.eq_none_iff_forall_ne_some]
  rintro ⟨k, m⟩ found
  obtain ⟨-, -, q, hq, front⟩ := tokenOf?_eq_some_iff.1 found
  obtain ⟨⟨t, ht⟩, d, mid, e, rfl, hd, -⟩ :=
    (mem_fronts_delimited hq).1 (List.mem_of_mem_head? front)
  obtain ⟨rfl, -⟩ := List.cons.inj ht
  exact mark hd

theorem tokenOf?_number_eq_none {c : Char} (digit : CharClass.asciiDigit.has c = false) :
    tokenOf? .number (read? defaultNumberPattern) before (c :: rest) = none := by
  rw [Option.eq_none_iff_forall_ne_some]
  rintro ⟨k, m⟩ found
  obtain ⟨-, -, q, hq, front⟩ := tokenOf?_eq_some_iff.1 found
  rw [read?_defaultNumberPattern] at hq
  obtain rfl := Option.some.inj hq
  have mem := List.mem_of_mem_head? front
  obtain ⟨d, n, rfl, hd⟩ := exists_of_mem_number mem
  obtain ⟨t, ht⟩ := prefix_of_mem_fronts mem
  obtain ⟨rfl, -⟩ := List.cons.inj ht
  exact absurd hd (by simp [digit])

/-- The token of a place, by the priority of the rules. -/
theorem token?_rulesWith (compile : String → Option Pattern) (x : Lexicon) (before : Option Char)
    (rest : List Char) :
    Scan.token? (x.rulesWith compile) before rest =
      (tokenOf? .string (delimited? x.delimiters) before rest).or
        ((tokenOf? .number (compile x.numberPattern) before rest).or
          ((tokenOf? .keyword (wholeWord? x.keywords) before rest).or
            ((tokenOf? .type (wholeWord? x.types) before rest).or
              (tokenOf? .builtin (wholeWord? x.builtins) before rest)))) := by
  have step : ∀ (k : TokenKind) (p : Option Pattern) (rs : List (Option Rule)),
      Scan.token? ((p.map (Rule.mk k) :: rs).filterMap id) before rest =
        (tokenOf? k p before rest).or (Scan.token? (rs.filterMap id) before rest) := by
    intro k p rs
    cases p with
    | none => rfl
    | some p =>
      simp only [Scan.token?, tokenOf?, Option.map_some, List.filterMap_cons, id_eq,
        List.findSome?_cons, Option.bind_some]
      cases (Rule.mk k p).token? before rest <;> rfl
  simp only [rulesWith, step]
  simp [Scan.token?]

theorem token?_rules (x : Lexicon) (before : Option Char) (rest : List Char) :
    Scan.token? x.rules before rest =
      (tokenOf? .string (delimited? x.delimiters) before rest).or
        ((tokenOf? .number (read? x.numberPattern) before rest).or
          ((tokenOf? .keyword (wholeWord? x.keywords) before rest).or
            ((tokenOf? .type (wholeWord? x.types) before rest).or
              (tokenOf? .builtin (wholeWord? x.builtins) before rest)))) :=
  token?_rulesWith read? x before rest

/-- Where a token comes from, in a lexicon with the usual numbers. -/
theorem token?_cases (usual : x.numberPattern = defaultNumberPattern)
    (h : Scan.token? x.rules before rest = some (k, m)) :
    (∃ d n, m = d :: n ∧ d ∈ x.delimiters) ∨ m ∈ number.fronts before rest ∨
      ∃ w ∈ x.words, w.toList = m ∧ StandsWhole before rest m := by
  have word : ∀ {ws : List String} {k' : TokenKind}, (∀ w ∈ ws, w ∈ x.words) →
      tokenOf? k' (wholeWord? ws) before rest = some (k, m) →
      ∃ w ∈ x.words, w.toList = m ∧ StandsWhole before rest m := by
    intro ws k' sub h
    obtain ⟨-, -, q, hq, front⟩ := tokenOf?_eq_some_iff.1 h
    obtain ⟨⟨w, hw, -, e⟩, stands, -⟩ := (front?_wholeWord hq).1 front
    exact ⟨w, sub w hw, e, stands⟩
  simp only [token?_rules, Option.or_eq_some_iff] at h
  rcases h with h | ⟨-, h | ⟨-, h | ⟨-, h | ⟨-, h⟩⟩⟩⟩
  · obtain ⟨-, -, q, hq, front⟩ := tokenOf?_eq_some_iff.1 h
    obtain ⟨-, d, mid, e, rfl, hd, -⟩ := (mem_fronts_delimited hq).1 (List.mem_of_mem_head? front)
    exact .inl ⟨d, mid ++ [e], rfl, hd⟩
  · obtain ⟨-, -, q, hq, front⟩ := tokenOf?_eq_some_iff.1 h
    rw [usual, read?_defaultNumberPattern] at hq
    obtain rfl := Option.some.inj hq
    exact .inr (.inl (List.mem_of_mem_head? front))
  all_goals
    refine .inr (.inr (word (fun w hw => ?_) h))
    simp [words, hw]

end LineTint.Lexicon
