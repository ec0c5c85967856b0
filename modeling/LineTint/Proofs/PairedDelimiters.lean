import LineTint.Proofs.Classification
import LineTint.Proofs.Lossless
import LineTint.Proofs.ReservedWords

/-!
# Strings pair the delimiters of a line

Where nothing but a string can have a delimiter in it, the strings of a line are told by its
delimiters alone: one from the first to the second, one from the third to the fourth, whatever
stands between them. The scan comes to every delimiter from outside a string
(`Lexicon.DelimitersApart.token?_cases`). It takes the string up to the next delimiter, or the line
has no other one, and then no string follows any more. `Pairs` is what a scan keeps of this, with
one lemma for each of its steps, and `Lexicon.DelimitersApart.pairs` folds them. The last of an odd
number of delimiters is in no span, so it is in a plain run (`Cut.plainAt`).
-/

namespace LineTint
set_option autoImplicit false
open Pattern Text

/-! ## Marks -/

/-- A delimiter in a line: the offsets of its first byte and of the byte behind it. -/
structure Mark where
  start : Nat
  stop : Nat
  deriving DecidableEq, Repr

namespace Mark

/-- The delimiters in the text at an offset of a line, from left to right. -/
def all (ds : List Char) (offset : Nat) : List Char → List Mark
  | [] => []
  | c :: rest =>
    let later := all ds (offset + c.utf8Size) rest
    if c ∈ ds then ⟨offset, offset + c.utf8Size⟩ :: later else later

/-- A string from the first mark to the second, one from the third to the fourth, and so on. A
last mark without a partner gives none. -/
def strings : List Mark → List Span
  | opening :: closing :: later => ⟨opening.start, closing.stop, .string⟩ :: strings later
  | _ => []

/-- The mark without a partner. -/
def unpaired? : List Mark → Option Mark
  | [] => none
  | [m] => some m
  | _ :: _ :: later => unpaired? later

theorem unpaired?_eq (ms : List Mark) :
    unpaired? ms = if ms.length % 2 = 1 then ms.getLast? else none := by
  induction ms using unpaired?.induct with
  | case1 => rfl
  | case2 m => rfl
  | case3 opening closing later ih =>
    have parity : (opening :: closing :: later).length % 2 = later.length % 2 := by
      simp only [List.length_cons]
      omega
    rw [unpaired?, ih, parity]
    cases later with
    | nil => rfl
    | cons m later => simp only [List.getLast?_cons_cons]

variable {ds : List Char} {offset : Nat} {m : Mark}

/-- The order of the delimiters makes no difference. -/
theorem all_congr {es : List Char} (same : ∀ c, c ∈ ds ↔ c ∈ es) (text : List Char) :
    all ds offset text = all es offset text := by
  induction text generalizing offset with
  | nil => rfl
  | cons c text ih => simp only [all, same, ih]

theorem all_append (ds : List Char) (offset : Nat) (a b : List Char) :
    all ds offset (a ++ b) = all ds offset a ++ all ds (offset + byteLength a) b := by
  induction a generalizing offset with
  | nil => rfl
  | cons c a ih =>
    simp only [List.cons_append, all, ih, byteLength_cons, Nat.add_assoc]
    split <;> rfl

theorem all_of_free {a : List Char} (free : ∀ c ∈ a, c ∉ ds) : all ds offset a = [] := by
  induction a generalizing offset with
  | nil => rfl
  | cons c a ih =>
    obtain ⟨here, later⟩ := List.forall_mem_cons.1 free
    simp only [all, here, if_false, ih later]

/-- The marks of a text between two delimiters. -/
theorem all_delimited {d e : Char} {mid : List Char} (hd : d ∈ ds) (he : e ∈ ds)
    (free : ∀ c ∈ mid, c ∉ ds) :
    all ds offset (d :: (mid ++ [e])) = [⟨offset, offset + d.utf8Size⟩,
      ⟨offset + d.utf8Size + byteLength mid, offset + byteLength (d :: (mid ++ [e]))⟩] := by
  have stop : offset + byteLength (d :: (mid ++ [e])) =
      offset + d.utf8Size + byteLength mid + e.utf8Size := by
    simp only [byteLength_cons, byteLength_append, byteLength_nil]
    omega
  simp only [all, hd, if_true, all_append, all_of_free free, List.nil_append, he, stop]

/-- A mark stands at a place of its text. -/
theorem exists_of_mem {text : List Char} (h : m ∈ all ds offset text) :
    ∃ u c v, text = u ++ c :: v ∧ m.start = offset + byteLength u ∧
      m.stop = m.start + c.utf8Size := by
  induction text generalizing offset with
  | nil => exact absurd h (by simp [all])
  | cons c text ih =>
    have later : m ∈ all ds (offset + c.utf8Size) text →
        ∃ u d v, c :: text = u ++ d :: v ∧ m.start = offset + byteLength u ∧
          m.stop = m.start + d.utf8Size := by
      intro h
      obtain ⟨u, d, v, rfl, start, stop⟩ := ih h
      refine ⟨c :: u, d, v, rfl, ?_, stop⟩
      rw [start, byteLength_cons, Nat.add_assoc]
    simp only [all] at h
    split at h
    · rcases List.mem_cons.1 h with rfl | h
      · exact ⟨[], c, text, rfl, rfl, rfl⟩
      · exact later h
    · exact later h

theorem le_start {text : List Char} (h : m ∈ all ds offset text) : offset ≤ m.start := by
  obtain ⟨u, c, v, -, start, -⟩ := exists_of_mem h
  omega

theorem mem_of_unpaired? {ms : List Mark} (h : unpaired? ms = some m) : m ∈ ms := by
  rw [unpaired?_eq] at h
  split at h
  · exact List.mem_of_getLast? h
  · exact absurd h (by simp)

end Mark

/-! ## What a scan keeps -/

/-- Among the spans of a text are the strings that its marks give, and the mark without a partner
is in none of the spans. -/
structure Pairs (ms : List Mark) (ss : List Span) : Prop where
  strings : ss.filter (·.kind = .string) = Mark.strings ms
  unpaired : ∀ m ∈ Mark.unpaired? ms, ∀ s ∈ ss, s.stop ≤ m.start ∨ m.stop ≤ s.start

namespace Pairs

variable {ms : List Mark} {ss : List Span} {s : Span} {m : Mark}

theorem nil : Pairs [] [] :=
  ⟨rfl, by simp [Mark.unpaired?]⟩

/-- A span that is no string and in front of all marks. -/
theorem cons_other (h : Pairs ms ss) (other : s.kind ≠ .string)
    (before : ∀ m ∈ ms, s.stop ≤ m.start) : Pairs ms (s :: ss) where
  strings := by
    rw [List.filter_cons_of_neg (by simpa using other)]
    exact h.strings
  unpaired m hm := by
    refine List.forall_mem_cons.2 ⟨.inl ?_, h.unpaired m hm⟩
    exact before m (Mark.mem_of_unpaired? hm)

/-- A string between two marks in front of all others. -/
theorem cons_string {opening closing : Mark} (h : Pairs ms ss)
    (before : ∀ m ∈ ms, closing.stop ≤ m.start) :
    Pairs (opening :: closing :: ms) (⟨opening.start, closing.stop, .string⟩ :: ss) where
  strings := by
    rw [List.filter_cons_of_pos (by simp), h.strings, Mark.strings]
  unpaired m hm := by
    have later : Mark.unpaired? ms = some m := hm
    refine List.forall_mem_cons.2 ⟨.inl ?_, h.unpaired m later⟩
    exact before m (Mark.mem_of_unpaired? later)

/-- A last mark in front of all spans. -/
theorem last (h : Pairs [] ss) (before : ∀ s ∈ ss, m.stop ≤ s.start) : Pairs [m] ss where
  strings := h.strings
  unpaired n hn s hs := by
    obtain rfl : m = n := Option.some.inj hn
    exact .inr (before s hs)

end Pairs

/-! ## The scan -/

/-- A string can begin at a delimiter only if the line has another one behind it. -/
theorem Pattern.exists_front?_delimited {ds rest : List Char} {d c : Char} (before : Option Char)
    (hd : d ∈ ds) (hc : c ∈ ds) (mem : c ∈ rest) (oneLine : '\n' ∉ rest) :
    ∃ p m, delimited? ds = some p ∧ p.front? before (d :: rest) = some m ∧ m ≠ [] := by
  obtain ⟨p, hp⟩ : ∃ p, delimited? ds = some p := by
    cases ds with
    | nil => exact absurd hd (by simp)
    | cons d ds => exact ⟨_, rfl⟩
  obtain ⟨e, first⟩ : ∃ e, rest.find? (· ∈ ds) = some e := by
    rw [← Option.isSome_iff_exists, List.find?_isSome]
    exact ⟨c, mem, by simpa using hc⟩
  obtain ⟨he, mid, behind, rfl, free⟩ := List.find?_eq_some_iff_append.1 first
  refine ⟨p, d :: (mid ++ [e]), hp, (front?_delimited_iff hp).2 ⟨⟨behind, by simp⟩, ?_⟩, by simp⟩
  refine ⟨d, mid, e, rfl, hd, by simpa using he, fun c hc => ⟨by simpa using free c hc, ?_⟩⟩
  rintro rfl
  exact oneLine (List.mem_append_left _ hc)

namespace Lexicon

/-- Nothing but strings has a delimiter in it: the numbers are the usual ones, and no delimiter is
a part of a number or of a listed word. -/
structure DelimitersApart (x : Lexicon) : Prop where
  numbers : x.numberPattern = defaultNumberPattern
  noDigit : ∀ d ∈ x.delimiters, d.isDigit = false
  noDot : '.' ∉ x.delimiters
  words : ∀ w ∈ x.words, ∀ d ∈ x.delimiters, d ∉ w.toList

namespace DelimitersApart

variable {x : Lexicon} (apart : x.DelimitersApart) {before : Option Char} {a rest m : List Char}
  {k : TokenKind} {ss : List Span}
include apart

theorem free_of_mem_number (h : m ∈ number.fronts before rest) : ∀ c ∈ m, c ∉ x.delimiters := by
  have noDigit : ∀ c, CharClass.asciiDigit.has c = true → c ∉ x.delimiters := by
    intro c digit mark
    rw [CharClass.has_asciiDigit, apart.noDigit c mark] at digit
    exact absurd digit (by simp)
  obtain ⟨-, -, -, ds, dot, fs, rfl, -, digits, hdot⟩ := mem_fronts_number.1 h
  obtain ⟨hds, hfs⟩ := List.forall_mem_append.1 digits
  refine List.forall_mem_append.2 ⟨fun c hc => noDigit c (hds c hc), ?_⟩
  refine List.forall_mem_append.2 ⟨fun c hc => ?_, fun c hc => noDigit c (hfs c hc)⟩
  rcases hdot with rfl | rfl
  · obtain rfl := List.mem_singleton.1 hc
    exact apart.noDot
  · exact absurd hc (by simp)

theorem free_of_word {ws : List String} {p : Pattern} (rule : wholeWord? ws = some p)
    (best : p.front? before rest = some m) (sub : ∀ w ∈ ws, w ∈ x.words) :
    ∀ c ∈ m, c ∉ x.delimiters := by
  intro c hc mark
  have listed := (word_of_front? rule best).1
  have noMark := apart.words _ (sub _ listed) c mark
  rw [String.toList_ofList] at noMark
  exact noMark hc

/-- A token is a string between two delimiters, or it has no delimiter in it. -/
theorem token?_cases (h : Scan.token? x.rules before rest = some (k, m)) :
    (k = .string ∧ ∃ d mid e, m = d :: (mid ++ [e]) ∧ d ∈ x.delimiters ∧ e ∈ x.delimiters ∧
      ∀ c ∈ mid, c ∉ x.delimiters) ∨
    (k ≠ .string ∧ ∀ c ∈ m, c ∉ x.delimiters) := by
  cases origin_of_token? h with
  | string rule best => exact .inl ⟨rfl, front?_delimited rule best⟩
  | number rule best =>
    rw [apart.numbers, read?_defaultNumberPattern] at rule
    obtain rfl := Option.some.inj rule
    exact .inr ⟨by decide, apart.free_of_mem_number (mem_fronts_of_front? best)⟩
  | keyword rule best =>
    exact .inr ⟨by decide, apart.free_of_word rule best fun w hw => by simp [Lexicon.words, hw]⟩
  | type rule best =>
    exact .inr ⟨by decide, apart.free_of_word rule best fun w hw => by simp [Lexicon.words, hw]⟩
  | builtin rule best =>
    exact .inr ⟨by decide, apart.free_of_word rule best fun w hw => by simp [Lexicon.words, hw]⟩

omit apart in
/-- Where no token begins at a delimiter, the line has no other one. -/
theorem free_of_token?_eq_none {d : Char} (hd : d ∈ x.delimiters) (oneLine : '\n' ∉ rest)
    (nothing : Scan.token? x.rules before (d :: rest) = none) : ∀ c ∈ rest, c ∉ x.delimiters := by
  intro c mem hc
  obtain ⟨p, m, rule, best, ne⟩ := exists_front?_delimited before hd hc mem oneLine
  have found : tokenOf? .string (delimited? x.delimiters) before (d :: rest) = some (.string, m) :=
    tokenOf?_eq_some_iff.2 ⟨rfl, ne, p, rule, best⟩
  rw [token?_rules, found] at nothing
  exact absurd nothing (by simp)

/-- **A scan pairs the delimiters** of a text in one line. The induction is on the scan; its cursor
never comes to a place inside a string. -/
theorem pairs (h : Scan.Scanned x.rules a rest ss) (oneLine : '\n' ∉ rest) :
    Pairs (Mark.all x.delimiters (byteLength a) rest) ss := by
  induction h with
  | done a => exact .nil
  | @token a m rest k ss here later ih =>
    have kept := ih fun mem => oneLine (List.mem_append_right m mem)
    rw [byteLength_append] at kept
    have behind : ∀ n ∈ Mark.all x.delimiters (byteLength a + byteLength m) rest,
        byteLength a + byteLength m ≤ n.start := fun n hn => Mark.le_start hn
    rw [Mark.all_append]
    rcases apart.token?_cases here with ⟨rfl, d, mid, e, rfl, hd, he, free⟩ | ⟨other, free⟩
    · rw [Mark.all_delimited hd he free]
      exact kept.cons_string behind
    · rw [Mark.all_of_free free, List.nil_append]
      exact kept.cons_other other behind
  | @skip a rest c ss here later ih =>
    have laterLine : '\n' ∉ rest := fun mem => oneLine (List.mem_cons_of_mem c mem)
    have kept := ih laterLine
    rw [byteLength_append, byteLength_cons, byteLength_nil, Nat.add_zero] at kept
    by_cases mark : c ∈ x.delimiters
    · have free := free_of_token?_eq_none mark laterLine here
      rw [Mark.all_of_free free] at kept
      simp only [Mark.all, mark, if_true, Mark.all_of_free free]
      refine kept.last fun s hs => ?_
      obtain ⟨gap, n, b, -, -, start, -⟩ := later.cut.exists_of_mem hs
      rw [start, byteLength_append, byteLength_cons, byteLength_nil]
      show byteLength a + c.utf8Size ≤ _
      omega
    · simpa only [Mark.all, mark, if_false] using kept

end DelimitersApart
end Lexicon

/-! ## Plain runs -/

/-- The bytes of a mark are in one plain run, when the first run begins at the offset. -/
def Run.PlainAt (m : Mark) (offset : Nat) (rs : List Run) : Prop :=
  ∃ front r behind, rs = front ++ r :: behind ∧ r.kind = none ∧
    offset + (Run.join front).utf8ByteSize ≤ m.start ∧
    m.stop ≤ offset + (Run.join front).utf8ByteSize + r.text.utf8ByteSize

section PlainAt

variable {m : Mark} {offset : Nat} {rs : List Run} {ss : List Span} {rest : List Char}

theorem Run.PlainAt.cons {r : Run} (h : Run.PlainAt m (offset + r.text.utf8ByteSize) rs) :
    Run.PlainAt m offset (r :: rs) := by
  obtain ⟨front, p, behind, rfl, plain, start, stop⟩ := h
  have join : (Run.join (r :: front)).utf8ByteSize =
      r.text.utf8ByteSize + (Run.join front).utf8ByteSize := by
    simp [Run.join, String.join_cons]
  refine ⟨r :: front, p, behind, rfl, plain, ?_, ?_⟩ <;> omega

theorem Run.PlainAt.ofPlain_append {gap : List Char}
    (h : Run.PlainAt m (offset + byteLength gap) rs) :
    Run.PlainAt m offset (Run.ofPlain gap ++ rs) := by
  cases gap with
  | nil => exact h
  | cons c gap =>
    apply Run.PlainAt.cons
    rwa [utf8ByteSize_ofList]

theorem Run.plainAt_ofPlain {gap : List Char} (start : offset ≤ m.start) (some : m.start < m.stop)
    (stop : m.stop ≤ offset + byteLength gap) (rs : List Run) :
    Run.PlainAt m offset (Run.ofPlain gap ++ rs) := by
  cases gap with
  | nil =>
    rw [byteLength_nil] at stop
    omega
  | cons c gap =>
    refine ⟨[], ⟨.ofList (c :: gap), none⟩, rs, rfl, rfl, start, ?_⟩
    rw [utf8ByteSize_ofList]
    exact stop

/-- What is in no span is in a plain run. -/
theorem Cut.plainAt (h : Cut offset rest ss) (start : offset ≤ m.start) (some : m.start < m.stop)
    (stop : m.stop ≤ offset + byteLength rest)
    (outside : ∀ s ∈ ss, s.stop ≤ m.start ∨ m.stop ≤ s.start) :
    Run.PlainAt m offset (Run.ofSpans offset rest ss) := by
  induction h with
  | gap offset rest =>
    have := Run.plainAt_ofPlain start some stop []
    rwa [List.append_nil] at this
  | @piece offset gap n rest k ss ne later ih =>
    obtain ⟨here, others⟩ := List.forall_mem_cons.1 outside
    simp only [byteLength_append] at stop
    rw [ofSpans_piece]
    rcases here with behind | inGap
    · apply Run.PlainAt.ofPlain_append
      apply Run.PlainAt.cons
      rw [utf8ByteSize_ofList]
      exact ih behind (by omega) others
    · exact Run.plainAt_ofPlain start some inGap _

end PlainAt

/-! ## The line -/

theorem Language.delimitersApart (l : Language) : l.lexicon.DelimitersApart where
  numbers := l.usual_numbers
  noDigit d mark := by rcases l.mem_delimiters.1 mark with rfl | rfl <;> decide
  noDot := by simp [l.mem_delimiters]
  words w hw d mark := by
    have table : ∀ v ∈ l.lexicon.words, '"' ∉ v.toList ∧ '\'' ∉ v.toList := by
      cases l <;> exact Lexicon.forall_words_of_tables rfl rfl rfl (by decide +kernel)
    rcases l.mem_delimiters.1 mark with rfl | rfl
    · exact (table w hw).1
    · exact (table w hw).2

namespace Highlighter

/-- **Strings pair the delimiters of a line** in order, in every language and wherever no number
and no word has a delimiter in it. The last of an odd number of delimiters is plain text. -/
theorem strings_pair_delimiters :
    (∀ l : Language, l.lexicon.delimiters ≠ [] ∧ l.lexicon.DelimitersApart) ∧
    ∀ (x : Lexicon) (line : String), x.DelimitersApart → '\n' ∉ line.toList →
      (ofLexicon x).isComment line.toList = false →
      let ms := Mark.all x.delimiters 0 line.toList
      ((ofLexicon x).spans line).filter (·.kind = .string) = Mark.strings ms ∧
        (ms.length % 2 = 1 →
          ∀ m ∈ ms.getLast?, Run.PlainAt m 0 ((ofLexicon x).runs line)) := by
  constructor
  · intro l
    have mark : '"' ∈ l.lexicon.delimiters := l.mem_delimiters.2 (.inl rfl)
    exact ⟨List.ne_nil_of_mem mark, l.delimitersApart⟩
  · intro x line apart oneLine code ms
    have pairs : Pairs ms ((ofLexicon x).spans line) := by
      rw [spans_eq_scan code]
      exact apart.pairs (Scan.spans_scanned x.rules line.toList) oneLine
    refine ⟨pairs.strings, fun odd m last => ?_⟩
    have unpaired : Mark.unpaired? ms = some m := by
      rw [Mark.unpaired?_eq, if_pos odd]
      exact last
    obtain ⟨u, c, v, place, start, stop⟩ := Mark.exists_of_mem (Mark.mem_of_unpaired? unpaired)
    have width := c.utf8Size_pos
    apply ((ofLexicon x).cut_spans line).plainAt (Nat.zero_le _)
    · omega
    · rw [place, byteLength_append, byteLength_cons]
      omega
    · exact pairs.unpaired m unpaired

/-- A string, and a quote that nothing closes. -/
theorem unclosed_delimiter_plain :
    let line := "f(\"a\", 'b)"
    Language.kotlin.lexicon.DelimitersApart ∧ '\n' ∉ line.toList ∧
      (ofLanguage .kotlin).isComment line.toList = false ∧
      ((ofLanguage .kotlin).spans line).filter (·.kind = .string) = [⟨2, 5, .string⟩] ∧
      Run.PlainAt ⟨7, 8⟩ 0 ((ofLanguage .kotlin).runs line) := by
  intro line
  have apart := Language.kotlin.delimitersApart
  have oneLine : '\n' ∉ line.toList := by decide
  have code : (ofLanguage .kotlin).isComment line.toList = false := by decide
  have marks : Mark.all Language.kotlin.lexicon.delimiters 0 line.toList =
      [⟨2, 3⟩, ⟨4, 5⟩, ⟨7, 8⟩] := by
    have quotes : ∀ c, c ∈ Language.kotlin.lexicon.delimiters ↔ c ∈ ['"', '\''] := by
      simp [Language.mem_delimiters]
    rw [Mark.all_congr quotes]
    decide
  have pairs := strings_pair_delimiters.2 Language.kotlin.lexicon line apart oneLine code
  simp only [marks] at pairs
  exact ⟨apart, oneLine, code, pairs.1, pairs.2 rfl ⟨7, 8⟩ rfl⟩

end Highlighter
end LineTint
