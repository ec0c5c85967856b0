import LineTint.Pattern.Escape
import LineTint.Pattern.Reader
import LineTint.Proofs.RuleFronts

/-!
# Escaped texts read back

The written pattern of listed words and that of delimiters are read into patterns that describe the
same texts in the same order as `wholeWord?` and `delimited?` (`read?_wholeWordText`,
`read?_delimitedText`), whatever characters the words and delimiters have. An escaped character is
one symbol, the character itself (`read_escapeChar`); the symbols of a text are put together along
it (`Spells`) and folded into groups (`foldlM_alternatives`). In brackets it is one member, so a
class has the characters it is written for (`exists_read_classText`).
-/

namespace LineTint.Pattern
set_option autoImplicit false

/-! ## Patterns with the same fronts -/

/-- Two patterns describe the same texts at every place, in the same order. -/
def SameFronts (p q : Pattern) : Prop :=
  ∀ before text, p.fronts before text = q.fronts before text

section SameFronts

variable {p p' q q' : Pattern}

theorem SameFronts.seq (left : SameFronts p p') (right : SameFronts q q') :
    SameFronts (.seq p q) (.seq p' q') := by
  intro before text
  rw [fronts_seq, fronts_seq, left before text]
  refine List.flatMap_congr fun a _ => ?_
  rw [extend, extend, right]

theorem SameFronts.andThen (left : SameFronts p p') (right : SameFronts q q') :
    SameFronts (p.andThen q) (.seq p' q') := by
  intro before text
  rw [fronts_andThen]
  exact left.seq right before text

theorem SameFronts.refl (p : Pattern) : SameFronts p p := fun _ _ => rfl

theorem sameFronts_char {cls cls' : CharClass} (h : ∀ c, cls.has c = cls'.has c) :
    SameFronts (.char cls) (.char cls') := by
  intro before text
  cases text with
  | nil => rfl
  | cons c text => rw [fronts_char_cons, fronts_char_cons, h]

/-- Characters one after the other are the literal that they spell. -/
theorem sequence_sameFronts_literal (w : List Char) :
    SameFronts (sequence (w.map fun c => .char (.single c))) (literal w) := by
  induction w with
  | nil => exact .refl .empty
  | cons c w ih => exact (SameFronts.refl _).andThen ih

end SameFronts

/-! ## Symbols -/

/-- A text is read into these symbols, with any fuel that is enough. -/
def Spells (text : List Char) (symbols : List Symbol) : Prop :=
  ∀ fuel, text.length ≤ fuel → Symbol.readUpTo fuel text = some symbols

section Spells

variable {text rest : List Char} {symbols : List Symbol}

theorem Spells.nil : Spells [] [] := by
  intro fuel _
  cases fuel <;> rfl

theorem Spells.cons {s : Symbol} (later : Spells rest symbols)
    (first : Symbol.read text = some (s, rest)) (shorter : rest.length < text.length) :
    Spells text (s :: symbols) := by
  intro fuel enough
  cases fuel with
  | zero => omega
  | succ fuel =>
    have read : Symbol.readUpTo fuel rest = some symbols := later fuel (by omega)
    cases text with
    | nil => exact absurd shorter (by simp)
    | cons c cs => simp [Symbol.readUpTo, first, read]

theorem Spells.readAll (h : Spells text symbols) : Symbol.readAll text = some symbols :=
  h text.length (Nat.le_refl _)

end Spells

/-! ## Escaped characters -/

theorem readEscape_of_mem {c : Char} (special : c ∈ syntaxChars) (rest : List Char) :
    readEscape (c :: rest) = some (.literal c, rest) := by
  simp only [syntaxChars, List.mem_cons, List.not_mem_nil, or_false] at special
  rcases special with rfl | rfl | rfl | rfl | rfl | rfl | rfl | rfl | rfl | rfl | rfl | rfl | rfl |
    rfl | rfl | rfl | rfl | rfl <;> rfl

/-- An escaped character is read as the character. -/
theorem read_escapeChar (c : Char) (rest : List Char) :
    Symbol.read (escapeChar c ++ rest) = some (.literal c, rest) := by
  by_cases special : c ∈ syntaxChars
  · rw [escapeChar, if_pos special]
    show (readEscape (c :: rest)).map _ = _
    rw [readEscape_of_mem special]
    rfl
  · rw [escapeChar, if_neg special, List.singleton_append]
    simp only [syntaxChars, List.mem_cons, List.not_mem_nil, or_false, not_or] at special
    unfold Symbol.read
    split <;> simp_all

theorem escapeChar_ne_nil (c : Char) : escapeChar c ≠ [] := by
  unfold escapeChar
  split <;> simp

theorem Spells.escape {rest : List Char} {symbols : List Symbol} (later : Spells rest symbols)
    (text : List Char) : Spells (Pattern.escape text ++ rest) (text.map .literal ++ symbols) := by
  induction text with
  | nil => exact later
  | cons c text ih =>
    have width := List.length_pos_iff.2 (escapeChar_ne_nil c)
    have front : Pattern.escape (c :: text) ++ rest =
        escapeChar c ++ (Pattern.escape text ++ rest) := by
      rw [Pattern.escape, List.flatMap_cons, List.append_assoc]
      rfl
    rw [front]
    refine ih.cons (read_escapeChar c _) ?_
    have length : (escapeChar c ++ (Pattern.escape text ++ rest)).length =
        (escapeChar c).length + (Pattern.escape text ++ rest).length := List.length_append
    omega

/-! ## Words -/

/-- The symbols of words with bars between them. -/
def barred (words : List (List Char)) : List Symbol :=
  [Symbol.bar].intercalate (words.map (List.map .literal))

theorem Spells.alternatives {rest : List Char} {symbols : List Symbol}
    (later : Spells rest symbols) (w : List Char) (ws : List (List Char)) :
    Spells (['|'].intercalate ((w :: ws).map Pattern.escape) ++ rest)
      (barred (w :: ws) ++ symbols) := by
  induction ws generalizing w with
  | nil =>
    simp only [barred, List.map_cons, List.map_nil, List.intercalate_singleton]
    exact later.escape w
  | cons v ws ih =>
    have behind : Spells ('|' :: _) (.bar :: _) := (ih v).cons rfl (Nat.lt_succ_self _)
    have here := behind.escape w
    simpa only [barred, List.map_cons, List.intercalate_cons_cons, List.append_assoc,
      List.singleton_append, List.cons_append, List.nil_append] using here

/-- What a group matches: its finished alternatives and then the one being read. -/
theorem fronts_pattern (g : Group) (before : Option Char) (text : List Char) :
    g.pattern.fronts before text = (g.branches.reverse.flatMap fun p => p.fronts before text) ++
      (sequence g.parts.reverse).fronts before text := by
  obtain ⟨branches, parts, flags, repeatable⟩ := g
  simp only [Group.pattern]
  generalize sequence parts.reverse = last
  induction branches generalizing last with
  | nil => rfl
  | cons p branches ih =>
    rw [List.foldl_cons, ih, fronts_alt, List.reverse_cons, List.flatMap_append]
    simp

theorem foldlM_literals (w : List Char) (r : Reading) (plain : r.inner.flags = .initial) :
    ∃ repeatable, (w.map Symbol.literal).foldlM Reading.step r = some
      { r with inner :=
        { r.inner with
          parts := (w.map fun c => Pattern.char (.single c)).reverse ++ r.inner.parts
          repeatable } } := by
  induction w generalizing r with
  | nil => exact ⟨r.inner.repeatable, rfl⟩
  | cons c w ih =>
    obtain ⟨repeatable, read⟩ := ih { r with inner := r.inner.add (.char (.single c)) } plain
    refine ⟨repeatable, ?_⟩
    have step : Reading.step r (.literal c) =
        some { r with inner := r.inner.add (.char (.single c)) } := by
      rw [Reading.step, plain]
      rfl
    rw [List.map_cons, List.foldlM_cons, step, Option.bind_eq_bind, Option.bind_some, read]
    simp [Group.add]

/-- A group of alternatives describes the texts of each word in turn, behind those of the
alternatives it had. -/
theorem foldlM_alternatives (w : List Char) (ws : List (List Char)) (r : Reading)
    (plain : r.inner.flags = .initial) (fresh : r.inner.parts = []) :
    ∃ g : Group, (barred (w :: ws)).foldlM Reading.step r = some { r with inner := g } ∧
      ∀ before text, g.pattern.fronts before text =
        (r.inner.branches.reverse.flatMap fun p => p.fronts before text) ++
          (w :: ws).flatMap fun v => (literal v).fronts before text := by
  induction ws generalizing w r with
  | nil =>
    obtain ⟨repeatable, read⟩ := foldlM_literals w r plain
    rw [barred, List.map_singleton, List.intercalate_singleton, read]
    refine ⟨_, rfl, fun before text => ?_⟩
    rw [fronts_pattern]
    simp only [fresh, List.append_nil, List.reverse_reverse, List.flatMap_cons, List.flatMap_nil]
    rw [sequence_sameFronts_literal]
  | cons v ws ih =>
    obtain ⟨repeatable, read⟩ := foldlM_literals w r plain
    let bar : Group := ⟨sequence (w.map fun c => .char (.single c)) :: r.inner.branches, [],
      r.inner.flags, false⟩
    obtain ⟨g, later, fronts⟩ := ih v { r with inner := bar } plain rfl
    refine ⟨g, ?_, fun before text => ?_⟩
    · rw [barred, List.map_cons, List.map_cons, List.intercalate_cons_cons, List.append_assoc,
        List.foldlM_append, read]
      simpa [barred, Reading.step, Group.bar, fresh, bar] using later
    · rw [fronts]
      simp [bar, sequence_sameFronts_literal w before text]

/-- The symbols of the written pattern of words. -/
def wordSymbols (words : List (List Char)) : List Symbol :=
  .anchor .boundary :: .openGroup none [] ::
    (barred words ++ [.closeGroup, .anchor .boundary])

theorem spells_wordsText (w : List Char) (ws : List (List Char)) :
    Spells (wordsText (w :: ws)) (wordSymbols (w :: ws)) := by
  have closing : Spells [')', '\\', 'b'] [.closeGroup, .anchor .boundary] :=
    Spells.cons (Spells.nil.cons rfl (by decide)) rfl (Nat.lt_succ_self _)
  have group : Spells ('(' :: '?' :: ':' :: _) (.openGroup none [] :: _) :=
    (closing.alternatives w ws).cons rfl (by simp)
  have whole : Spells ('\\' :: 'b' :: '(' :: _) (.anchor .boundary :: _) :=
    group.cons rfl (by simp)
  rw [wordsText, List.append_assoc]
  exact whole

/-- The pattern of the symbols is that of the words between two word boundaries. -/
theorem foldlM_wordSymbols (w : List Char) (ws : List (List Char)) :
    ∃ g, (wordSymbols (w :: ws)).foldlM Reading.step ⟨.start .initial, [], []⟩ =
        some ⟨g, [], []⟩ ∧
      SameFronts g.pattern (.seq (.anchor .boundary)
        (.seq (anyOf ((w :: ws).map literal)) (.anchor .boundary))) := by
  let outside : Group := (Group.start .initial).add (.anchor .boundary)
  obtain ⟨inside, read, fronts⟩ :=
    foldlM_alternatives w ws ⟨.start .initial, [outside], []⟩ rfl rfl
  refine ⟨(outside.add inside.pattern).add (.anchor .boundary), ?_, ?_⟩
  · show List.foldlM Reading.step ⟨.start .initial, [outside], []⟩
      (barred (w :: ws) ++ [.closeGroup, .anchor .boundary]) = _
    rw [List.foldlM_append, read]
    rfl
  · have alternatives : SameFronts inside.pattern (anyOf ((w :: ws).map literal)) := by
      intro before text
      rw [fronts, fronts_anyOf]
      simp [List.flatMap_map, Group.start]
    exact (SameFronts.refl _).andThen (alternatives.andThen (.refl _))

/-- **The written pattern of words** is read, and describes the same texts as their pattern. -/
theorem read?_wholeWordText (words : List String) :
    Option.Rel SameFronts ((wholeWordText? words).bind read?) (wholeWord? words) := by
  unfold wholeWordText? wholeWord?
  cases candidates words with
  | nil => exact .none
  | cons w ws =>
    obtain ⟨g, read, fronts⟩ := foldlM_wordSymbols w.toList (ws.map String.toList)
    rw [Option.bind_some, List.map_cons, read?, String.toList_ofList,
      (spells_wordsText _ _).readAll, Option.bind_eq_bind, Option.bind_some, read]
    refine .some ?_
    simpa [Function.comp_def] using fronts

/-! ## Classes -/

theorem readRange_escapeChar (c : Char) {next : Char} (rest : List Char) (other : next ≠ '-') :
    readRange (escapeChar c ++ next :: rest) = some (.single c, next :: rest) := by
  have member : readMember (escapeChar c ++ next :: rest) = some (.literal c, next :: rest) := by
    by_cases special : c ∈ syntaxChars
    · rw [escapeChar, if_pos special]
      exact readEscape_of_mem special _
    · rw [escapeChar, if_neg special]
      simp only [syntaxChars, List.mem_cons, List.not_mem_nil, or_false, not_or] at special
      unfold readMember
      split <;> simp_all
  simp only [readRange, member, Option.bind_eq_bind, Option.bind_some]
  split <;> simp_all

/-- What an escaped character begins with is no operator, bracket or hyphen. -/
theorem exists_escapeChar (c : Char) :
    ∃ first rest, escapeChar c = first :: rest ∧
      first ≠ ']' ∧ first ≠ '[' ∧ first ≠ '&' ∧ first ≠ '-' ∧ first ≠ '~' ∧ first ≠ '^' := by
  by_cases special : c ∈ syntaxChars
  · exact ⟨'\\', [c], by rw [escapeChar, if_pos special], by decide⟩
  · refine ⟨c, [], by rw [escapeChar, if_neg special], ?_⟩
    simp only [syntaxChars, List.mem_cons, List.not_mem_nil, or_false, not_or] at special
    simp only [special, ne_eq, not_false_eq_true, and_self]

/-- One escaped character in brackets is one member more. -/
theorem readBracket_escapeChar (fuel : Nat) (b : Bracket) (c : Char) {next : Char}
    (rest : List Char) (other : next ≠ '-') :
    readBracket (fuel + 1) b [] (escapeChar c ++ next :: rest) =
      readBracket fuel (b.add (.single c)) [] (next :: rest) := by
  have range := readRange_escapeChar c rest other
  obtain ⟨first, tail, e, h⟩ := exists_escapeChar c
  rw [e, List.cons_append] at range ⊢
  conv_lhs => unfold readBracket
  split <;> simp_all

theorem exists_escape_append (cs rest : List Char) :
    ∃ next tail, escape cs ++ ']' :: rest = next :: tail ∧ next ≠ '-' := by
  cases cs with
  | nil => exact ⟨']', rest, rfl, by decide⟩
  | cons c cs =>
    obtain ⟨first, tail, e, h⟩ := exists_escapeChar c
    refine ⟨first, tail ++ escape cs ++ ']' :: rest, ?_, h.2.2.2.1⟩
    simp [escape, e]

theorem length_le_escape (cs : List Char) : cs.length ≤ (escape cs).length := by
  induction cs with
  | nil => exact Nat.le_refl _
  | cons c cs ih =>
    have width := List.length_pos_iff.2 (escapeChar_ne_nil c)
    have split : (escape (c :: cs)).length = (escapeChar c).length + (escape cs).length := by
      rw [escape, List.flatMap_cons, List.length_append]
      rfl
    rw [List.length_cons]
    omega

/-- The members of a bracket that characters add to it. -/
def Bracket.addAll (b : Bracket) (cs : List Char) : Bracket :=
  cs.foldl (fun b c => b.add (.single c)) b

theorem readBracket_escape (fuel : Nat) (b : Bracket) (cs rest : List Char)
    (enough : cs.length < fuel) :
    readBracket fuel b [] (escape cs ++ ']' :: rest) = some ((b.addAll cs).value, rest) := by
  induction cs generalizing fuel b with
  | nil =>
    cases fuel with
    | zero => exact absurd enough (by simp)
    | succ fuel => rfl
  | cons c cs ih =>
    cases fuel with
    | zero => exact absurd enough (by simp)
    | succ fuel =>
      obtain ⟨next, tail, behind, other⟩ := exists_escape_append cs rest
      have front : escape (c :: cs) ++ ']' :: rest = escapeChar c ++ next :: tail := by
        rw [← behind, escape, List.flatMap_cons, List.append_assoc]
        rfl
      rw [front, readBracket_escapeChar fuel b c tail other, ← behind]
      exact ih fuel (b.add (.single c)) (Nat.lt_of_succ_lt_succ enough)

theorem has_value_addAll (cs : List Char) (members : CharClass) (x : Char) :
    ((Bracket.mk false none members).addAll cs).value.has x =
      (members.has x || decide (x ∈ cs)) := by
  induction cs generalizing members with
  | nil => simp [Bracket.addAll, Bracket.value, Bracket.operand]
  | cons c cs ih =>
    show ((Bracket.mk false none (.union members (.single c))).addAll cs).value.has x = _
    rw [ih, CharClass.has, has_single, Bool.or_assoc]
    simp only [List.mem_cons, Bool.decide_or]

/-- **A written class** has the characters that it is written for and no others. -/
theorem exists_read_classText {cs : List Char} (ne : cs ≠ []) (rest : List Char) :
    ∃ cls, Symbol.read (classText cs ++ rest) = some (.oneOf cls, rest) ∧
      ∀ x, cls.has x = decide (x ∈ cs) := by
  obtain ⟨c, cs, rfl⟩ := List.exists_cons_of_ne_nil ne
  obtain ⟨first, tail, e, h⟩ := exists_escapeChar c
  have opening : Bracket.opening (escape (c :: cs) ++ ']' :: rest) =
      (⟨false, none, .none⟩, escape (c :: cs) ++ ']' :: rest) := by
    simp [escape, e, Bracket.opening, Bracket.addHyphens, h]
  have text : classText (c :: cs) ++ rest = '[' :: (escape (c :: cs) ++ ']' :: rest) := by
    simp [classText]
  have width : (escape (c :: cs) ++ ']' :: rest).length =
      (escape (c :: cs)).length + 1 + rest.length := by
    simp [Nat.add_assoc, Nat.add_comm]
  refine ⟨((Bracket.mk false none .none).addAll (c :: cs)).value, ?_, fun x => ?_⟩
  · have read : readClass (escape (c :: cs) ++ ']' :: rest) =
        some (((Bracket.mk false none .none).addAll (c :: cs)).value, rest) := by
      rw [readClass, opening]
      refine readBracket_escape _ _ _ _ ?_
      have := length_le_escape (c :: cs)
      omega
    rw [text]
    show (readClass _).map _ = _
    rw [read]
    rfl
  · rw [has_value_addAll]
    rfl

/-- **The written pattern of delimited texts** is read, and describes the same texts as their
pattern. -/
theorem read?_delimitedText (ds : List Char) :
    Option.Rel SameFronts ((delimitedText? ds).bind read?) (delimited? ds) := by
  cases ds with
  | nil => exact .none
  | cons d ds =>
    have ne := List.cons_ne_nil d ds
    obtain ⟨closing, readClosing, hasClosing⟩ := exists_read_classText ne []
    obtain ⟨opening, readOpening, hasOpening⟩ :=
      exists_read_classText ne (['.', '*', '?'] ++ classText (d :: ds))
    have last : Spells (classText (d :: ds)) [.oneOf closing] := by
      rw [List.append_nil] at readClosing
      exact Spells.nil.cons readClosing (by simp [classText])
    have rounds : Spells ('*' :: '?' :: classText (d :: ds))
        [.quantifier 0 none false, .oneOf closing] :=
      last.cons rfl (Nat.lt_succ_of_lt (Nat.lt_succ_self _))
    have dot : Spells (['.', '*', '?'] ++ classText (d :: ds))
        [.dot, .quantifier 0 none false, .oneOf closing] :=
      rounds.cons rfl (Nat.lt_succ_self _)
    have whole := dot.cons readOpening (by simp [classText]; omega)
    have text : (delimitedText? (d :: ds)).bind read? =
        some (sequence [.char opening, .more false (.char notNewline), .char closing]) := by
      rw [delimitedText?, Option.bind_some, read?, String.toList_ofList, List.append_assoc,
        whole.readAll]
      rfl
    have quote : ∀ {cls : CharClass}, (∀ x, cls.has x = decide (x ∈ d :: ds)) →
        SameFronts (.char cls) (.char (.ofList (d :: ds))) := fun has =>
      sameFronts_char fun x => by rw [has, CharClass.has_ofList]
    have between := SameFronts.refl (.more false (.char notNewline))
    rw [text]
    exact .some ((quote hasOpening).andThen (between.andThen (quote hasClosing)))

end LineTint.Pattern
