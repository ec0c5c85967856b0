import LineTint.Proofs.Classification
import LineTint.Proofs.Numbers

/-!
# More keywords

What new keywords do to the spans of a line, where all words are of word characters. Of such words
only one stands whole at a place, so the kind of a word depends on the sets that list it and on no
other word (`Lexicon.word?_eq_some_iff`). A word that was a token keeps its span, as a keyword if it
is new; a word that was none gets a span now, and the scan without the new keywords, which goes
through that word character by character, finds nothing in it. So both scans meet behind the word
(`Lexicon.AddsKeywords.scanned`).
-/

namespace LineTint
set_option autoImplicit false
open Pattern Text

/-! ## The kind of a word -/

/-- The kind of a word when the words `added` are keywords too. -/
def TokenKind.promote (added : List String) (word : String) (k : TokenKind) : TokenKind :=
  if (k = .type ∨ k = .builtin) ∧ word ∈ added then .keyword else k

/-- The span with the kind that it has when the words `added` are keywords too. -/
def Span.promote (added : List String) (line : String) (s : Span) : Span :=
  { s with kind := s.kind.promote added (s.word line) }

namespace Lexicon

/-- The kind of a word, by the first set that lists it. -/
def kind? (x : Lexicon) (w : String) : Option TokenKind :=
  if w ∈ x.keywords then some .keyword
  else if w ∈ x.types then some .type
  else if w ∈ x.builtins then some .builtin
  else none

/-- The token that the word rules give at a place. -/
def word? (x : Lexicon) (before : Option Char) (rest : List Char) :
    Option (TokenKind × List Char) :=
  (tokenOf? .keyword (wholeWord? x.keywords) before rest).or
    ((tokenOf? .type (wholeWord? x.types) before rest).or
      (tokenOf? .builtin (wholeWord? x.builtins) before rest))

variable {x : Lexicon} {ws : List String} {k : TokenKind} {before : Option Char}
  {rest m : List Char}

theorem kind?_eq_none_iff {w : String} : x.kind? w = none ↔ w ∉ x.words := by
  simp only [kind?, words, List.mem_append, not_or]
  split
  · simp_all
  · split
    · simp_all
    · split <;> simp_all

theorem kind?_cases {w : String} (h : x.kind? w = some k) :
    k = .keyword ∨ k = .type ∨ k = .builtin := by
  simp only [kind?] at h
  split at h
  · exact .inl (Option.some.inj h).symm
  · split at h
    · exact .inr (.inl (Option.some.inj h).symm)
    · split at h
      · exact .inr (.inr (Option.some.inj h).symm)
      · exact absurd h (by simp)

theorem exists_of_tokenOf?_word {k' : TokenKind}
    (h : tokenOf? k (wholeWord? ws) before rest = some (k', m)) :
    k' = k ∧ String.ofList m ∈ ws ∧ StandsWhole before rest m := by
  obtain ⟨kind, -, p, rule, best⟩ := tokenOf?_eq_some_iff.1 h
  exact ⟨kind, (word_of_front? rule best).1, ((front?_wholeWord rule).1 best).2.1⟩

/-- The token of a set of words where the text `m` stands whole. -/
theorem tokenOf?_of_standsWhole (wordlike : ∀ w ∈ ws, Wordlike w.toList) (hm : Wordlike m)
    (stands : StandsWhole before rest m) :
    tokenOf? k (wholeWord? ws) before rest =
      if String.ofList m ∈ ws then some (k, m) else none := by
  have only : ∀ {k' n}, tokenOf? k (wholeWord? ws) before rest = some (k', n) →
      k' = k ∧ n = m ∧ String.ofList m ∈ ws := by
    intro k' n found
    obtain ⟨kind, listed, stands'⟩ := exists_of_tokenOf?_word found
    have hn := wordlike _ listed
    rw [String.toList_ofList] at hn
    obtain rfl := stands.eq_of_wordlike stands' hm hn
    exact ⟨kind, rfl, listed⟩
  cases found : tokenOf? k (wholeWord? ws) before rest with
  | some t =>
    obtain ⟨rfl, rfl, listed⟩ := only found
    rw [if_pos listed]
  | none =>
    rw [if_neg]
    intro listed
    have ne : String.ofList m ≠ "" := by
      intro empty
      exact hm.1 (by simpa using congrArg String.toList empty)
    exact not_standsWhole found listed ne (by rwa [String.toList_ofList])

theorem word?_of_standsWhole (wordlike : ∀ w ∈ x.words, Wordlike w.toList) (hm : Wordlike m)
    (stands : StandsWhole before rest m) :
    x.word? before rest = (x.kind? (.ofList m)).map fun k => (k, m) := by
  have one : ∀ (ws : List String) {k : TokenKind}, (∀ w ∈ ws, w ∈ x.words) →
      tokenOf? k (wholeWord? ws) before rest =
        if String.ofList m ∈ ws then some (k, m) else none :=
    fun _ _ listed => tokenOf?_of_standsWhole (fun w hw => wordlike w (listed w hw)) hm stands
  rw [word?, one x.keywords, one x.types, one x.builtins, kind?]
  · split
    · rfl
    · split
      · rfl
      · split <;> rfl
  all_goals exact fun w hw => by simp [words, hw]

theorem exists_of_word? (wordlike : ∀ w ∈ x.words, Wordlike w.toList)
    (h : x.word? before rest = some (k, m)) : Wordlike m ∧ StandsWhole before rest m := by
  have one : ∀ {ws : List String} {k' : TokenKind}, (∀ w ∈ ws, w ∈ x.words) →
      tokenOf? k' (wholeWord? ws) before rest = some (k, m) →
      Wordlike m ∧ StandsWhole before rest m := by
    intro ws k' listed found
    obtain ⟨-, hw, stands⟩ := exists_of_tokenOf?_word found
    have hm := wordlike _ (listed _ hw)
    rw [String.toList_ofList] at hm
    exact ⟨hm, stands⟩
  simp only [word?, Option.or_eq_some_iff] at h
  rcases h with h | ⟨-, h | ⟨-, h⟩⟩
  all_goals exact one (fun w hw => by simp [words, hw]) h

/-- **The word rules** give the one word that stands whole at a place, with its kind. -/
theorem word?_eq_some_iff (wordlike : ∀ w ∈ x.words, Wordlike w.toList) :
    x.word? before rest = some (k, m) ↔
      Wordlike m ∧ StandsWhole before rest m ∧ x.kind? (.ofList m) = some k := by
  constructor
  · intro h
    obtain ⟨hm, stands⟩ := exists_of_word? wordlike h
    rw [word?_of_standsWhole wordlike hm stands] at h
    obtain ⟨k', kind, e⟩ := Option.map_eq_some_iff.1 h
    obtain ⟨rfl, -⟩ := Prod.mk.inj e
    exact ⟨hm, stands, kind⟩
  · rintro ⟨hm, stands, kind⟩
    rw [word?_of_standsWhole wordlike hm stands, kind]
    rfl

/-- A token that begins with no delimiter and no digit is a word. -/
theorem token?_eq_word? (usual : x.numberPattern = defaultNumberPattern) {c : Char}
    (mark : c ∉ x.delimiters) (digit : CharClass.asciiDigit.has c = false) :
    Scan.token? x.rules before (c :: rest) = x.word? before (c :: rest) := by
  rw [token?_rules, usual, tokenOf?_string_eq_none mark, tokenOf?_number_eq_none digit]
  rfl

/-! ## The token of a place -/

/-- The words `added` are the new ones among the keywords `ks`, which are the keywords of the
lexicon and these. All words are of word characters, and nothing else of the lexicon is taken for
a part of a word. -/
structure AddsKeywords (x : Lexicon) (added ks : List String) : Prop where
  keywords : ∀ w, w ∈ ks ↔ w ∈ x.keywords ∨ w ∈ added
  wordlike : ∀ w ∈ x.words ++ added, Wordlike w.toList
  marks : ∀ d ∈ x.delimiters, isWord d = false
  numbers : x.numberPattern = defaultNumberPattern

variable {added ks : List String}

namespace AddsKeywords

variable (adds : x.AddsKeywords added ks)
include adds

theorem wordlike_before : ∀ w ∈ x.words, Wordlike w.toList :=
  fun w hw => adds.wordlike w (List.mem_append_left added hw)

theorem wordlike_after : ∀ w ∈ { x with keywords := ks }.words, Wordlike w.toList := by
  intro w hw
  refine adds.wordlike w ?_
  simp only [words, List.mem_append, adds.keywords] at hw ⊢
  rcases hw with ((hw | hw) | hw) | hw <;> simp [hw]

/-- The kind of a new keyword is that of keywords, and all other words keep theirs. -/
theorem kind?_eq (w : String) :
    { x with keywords := ks }.kind? w = if w ∈ added then some .keyword else x.kind? w := by
  by_cases new : w ∈ added <;> simp [kind?, adds.keywords, new]

/-- A kind that a word had is promoted. -/
theorem kind?_promote {w : String} (h : x.kind? w = some k) :
    { x with keywords := ks }.kind? w = some (k.promote added w) := by
  rw [adds.kind?_eq]
  by_cases new : w ∈ added
  · rcases kind?_cases h with rfl | rfl | rfl <;> simp [TokenKind.promote, new]
  · simp [TokenKind.promote, new, h]

/-- A token stays, with its kind promoted. -/
theorem token?_of_some (h : Scan.token? x.rules before rest = some (k, m)) :
    Scan.token? { x with keywords := ks }.rules before rest =
      some (k.promote added (.ofList m), m) := by
  rw [token?_rules, Option.or_eq_some_iff] at h
  rw [token?_rules]
  rcases h with string | ⟨noString, h⟩
  · obtain ⟨rfl, -⟩ := tokenOf?_eq_some_iff.1 string
    simp [string, TokenKind.promote]
  rw [noString, Option.none_or]
  rcases Option.or_eq_some_iff.1 h with number | ⟨noNumber, word⟩
  · obtain ⟨rfl, -⟩ := tokenOf?_eq_some_iff.1 number
    simp [number, TokenKind.promote]
  rw [noNumber, Option.none_or]
  obtain ⟨hm, stands, kind⟩ := (word?_eq_some_iff adds.wordlike_before).1 word
  exact (word?_eq_some_iff adds.wordlike_after).2 ⟨hm, stands, adds.kind?_promote kind⟩

/-- A token where none was is a new keyword. -/
theorem of_token? (nothing : Scan.token? x.rules before rest = none)
    (h : Scan.token? { x with keywords := ks }.rules before rest = some (k, m)) :
    k = .keyword ∧ Wordlike m ∧ String.ofList m ∈ added ∧ String.ofList m ∉ x.words := by
  simp only [token?_rules, Option.or_eq_none_iff] at nothing
  obtain ⟨noString, noNumber, noKeyword, noType, noBuiltin⟩ := nothing
  have noWord : x.word? before rest = none := by
    rw [word?, noKeyword, noType, noBuiltin]
    rfl
  rw [token?_rules, noString, noNumber, Option.none_or, Option.none_or] at h
  have word : { x with keywords := ks }.word? before rest = some (k, m) := h
  obtain ⟨hm, stands, kind⟩ := (word?_eq_some_iff adds.wordlike_after).1 word
  have unlisted : x.kind? (.ofList m) = none := by
    rwa [word?_of_standsWhole adds.wordlike_before hm stands, Option.map_eq_none_iff] at noWord
  rw [adds.kind?_eq, unlisted] at kind
  split at kind
  · rename_i new
    exact ⟨(Option.some.inj kind).symm, hm, new, kind?_eq_none_iff.1 unlisted⟩
  · exact absurd kind (by simp)

/-- Without the new keywords no token begins inside a word that is none. -/
theorem quiet {a : List Char} (hm : Wordlike m)
    (nothing : Scan.token? x.rules (lastOf none a) (m ++ rest) = none) :
    ∀ u v, m = u ++ v → v ≠ [] →
      Scan.token? x.rules (lastOf none (a ++ u)) (v ++ rest) = none := by
  rintro u v rfl ne
  by_cases nil : u = []
  · subst nil
    rwa [List.append_nil]
  · obtain ⟨c, v, rfl⟩ := List.exists_cons_of_ne_nil ne
    have noMark : c ∉ x.delimiters := by
      intro mark
      exact absurd (hm.2 c (by simp)) (by simp [adds.marks c mark])
    rw [lastOf_append, List.cons_append]
    exact token?_eq_none adds.numbers noMark (hm.isBoundary_inside nil _)

end AddsKeywords

/-! ## The scan -/

/-- The spans `ts` of a line are the spans `ss`, promoted, and new keywords. -/
structure GainsKeywords (x : Lexicon) (added : List String) (line : String) (ss ts : List Span) :
    Prop where
  kept : ∀ s ∈ ss, s.promote added line ∈ ts
  new : ∀ t ∈ ts, (∃ s ∈ ss, t = s.promote added line) ∨
    t.kind = .keyword ∧ t.word line ∈ added ∧ t.word line ∉ x.words

variable {line : String} {ss ts : List Span}

theorem GainsKeywords.cons_promote (h : x.GainsKeywords added line ss ts) (s : Span) :
    x.GainsKeywords added line (s :: ss) (s.promote added line :: ts) where
  kept r hr := by
    rcases List.mem_cons.1 hr with rfl | hr
    · exact List.mem_cons_self
    · exact List.mem_cons_of_mem _ (h.kept r hr)
  new t ht := by
    rcases List.mem_cons.1 ht with rfl | ht
    · exact .inl ⟨s, List.mem_cons_self, rfl⟩
    · refine (h.new t ht).imp_left ?_
      rintro ⟨r, hr, rfl⟩
      exact ⟨r, List.mem_cons_of_mem s hr, rfl⟩

theorem GainsKeywords.cons_new (h : x.GainsKeywords added line ss ts) {t : Span}
    (keyword : t.kind = .keyword) (mem : t.word line ∈ added) (unlisted : t.word line ∉ x.words) :
    x.GainsKeywords added line ss (t :: ts) where
  kept s hs := List.mem_cons_of_mem t (h.kept s hs)
  new r hr := by
    rcases List.mem_cons.1 hr with rfl | hr
    · exact .inr ⟨keyword, mem, unlisted⟩
    · exact h.new r hr

/-- **Two scans of a line**, the one with the new keywords and the one without them. The induction
is on the scan with them: it comes to no place that the other does not come to. -/
theorem AddsKeywords.scanned (adds : x.AddsKeywords added ks) {a : List Char}
    (after : Scan.Scanned { x with keywords := ks }.rules a rest ts)
    (before : Scan.Scanned x.rules a rest ss) (whole : line.toList = a ++ rest) :
    x.GainsKeywords added line ss ts := by
  induction after generalizing ss with
  | done a =>
    obtain rfl := before.unique (.done a)
    exact ⟨by simp, by simp⟩
  | @token a m rest k ts here later ih =>
    have behind : line.toList = (a ++ m) ++ rest := by rw [whole, List.append_assoc]
    have text := fun k => (Span.pieces_spanAt (k := k) whole).2.1
    cases was : Scan.token? x.rules (lastOf none a) (m ++ rest) with
    | some t =>
      obtain ⟨k', m'⟩ := t
      obtain ⟨rfl, rfl⟩ : k'.promote added (.ofList m') = k ∧ m' = m := by
        simpa using (adds.token?_of_some was).symm.trans here
      obtain ⟨ss, rfl, tail⟩ := before.of_token was
      have promoted : (Scan.spanAt (byteLength a) (k', m')).promote added line =
          Scan.spanAt (byteLength a) (k'.promote added (.ofList m'), m') := by
        simp only [Span.promote, Span.word, text]
        rfl
      rw [← promoted]
      exact (ih tail behind).cons_promote _
    | none =>
      obtain ⟨rfl, hm, mem, unlisted⟩ := adds.of_token? was here
      have tail := (Scan.Scanned.append_iff (adds.quiet hm was)).1 before
      exact (ih tail behind).cons_new rfl (by rwa [Span.word, text]) (by rwa [Span.word, text])
  | @skip a rest c ts here later ih =>
    have behind : line.toList = (a ++ [c]) ++ rest := by rw [whole, List.append_assoc]; rfl
    refine ih (before.of_none ?_) behind
    rw [Option.eq_none_iff_forall_ne_some]
    rintro ⟨k, m⟩ was
    exact absurd (here.symm.trans (adds.token?_of_some was)) (by simp)

theorem AddsKeywords.spans (adds : x.AddsKeywords added ks) (line : String) :
    x.GainsKeywords added line ((Highlighter.ofLexicon x).spans line)
      ((Highlighter.ofLexicon { x with keywords := ks }).spans line) := by
  cases comment : (Highlighter.ofLexicon x).isComment line.toList with
  | true =>
    have comment' : (Highlighter.ofLexicon { x with keywords := ks }).isComment line.toList =
        true := comment
    rw [Highlighter.spans_eq_comment comment, Highlighter.spans_eq_comment comment']
    exact (GainsKeywords.mk (by simp) (by simp)).cons_promote ⟨0, line.utf8ByteSize, .comment⟩
  | false =>
    have code : (Highlighter.ofLexicon { x with keywords := ks }).isComment line.toList =
        false := comment
    rw [Highlighter.spans_eq_scan comment, Highlighter.spans_eq_scan code]
    exact adds.scanned (Scan.spans_scanned _ _) (Scan.spans_scanned _ _) rfl

end Lexicon

/-! ## C and C++ -/

namespace Language

theorem cpp_addsKeywords :
    Language.c.lexicon.AddsKeywords Vocabulary.cppKeywords Language.cpp.lexicon.keywords where
  keywords w := by
    have c : Language.c.lexicon.keywords = sortedSet Vocabulary.cKeywords := rfl
    have cpp : Language.cpp.lexicon.keywords =
      sortedSet (Vocabulary.cppKeywords ++ Vocabulary.cKeywords) := rfl
    rw [c, cpp, mem_sortedSet, mem_sortedSet, List.mem_append, or_comm]
  wordlike w hw := by
    have table : ∀ v ∈ Vocabulary.cKeywords ++ [] ++ [] ++ Vocabulary.cppKeywords,
        Wordlike v.toList := by decide +kernel
    refine table w ?_
    rwa [List.mem_append, Lexicon.mem_words_of_tables rfl rfl rfl, ← List.mem_append] at hw
  marks d mark := by
    rcases (Language.mem_delimiters .c).1 mark with rfl | rfl <;> decide
  numbers := rfl

/-- C has neither types nor library names, so none can become a keyword. -/
theorem promote_of_mem_c {line : String} {s : Span}
    (hs : s ∈ (Highlighter.ofLanguage .c).spans line) (added : List String) :
    s.promote added line = s := by
  have noRule : wholeWord? (sortedSet []) = none :=
    wholeWord?_eq_none_iff.2 (by simp [mem_sortedSet])
  have other : ¬(s.kind = .type ∨ s.kind = .builtin) := by
    rintro (kind | kind)
    · cases Highlighter.origin_of_kind hs kind (by decide) with
      | type rule => exact absurd (noRule.symm.trans rule) (by simp)
    · cases Highlighter.origin_of_kind hs kind (by decide) with
      | builtin rule => exact absurd (noRule.symm.trans rule) (by simp)
  simp [Span.promote, TokenKind.promote, other]

end Language

/-- **More keywords** reclassify spans or add spans: every span stays, a type or a library name
among the new keywords as a keyword, and a span where none was is a new keyword. So C++ has the
spans of C, and besides them only keywords that C does not have. -/
theorem Highlighter.spans_addKeywords (line : String) :
    (∀ (x : Lexicon) (added ks : List String), x.AddsKeywords added ks →
      (∀ s ∈ (ofLexicon x).spans line,
        s.promote added line ∈ (ofLexicon { x with keywords := ks }).spans line) ∧
      ∀ t ∈ (ofLexicon { x with keywords := ks }).spans line,
        (∀ s ∈ (ofLexicon x).spans line, ¬(s.start = t.start ∧ s.stop = t.stop)) →
        t.kind = .keyword ∧ t.word line ∈ added) ∧
    (∀ s ∈ (ofLanguage .c).spans line, s ∈ (ofLanguage .cpp).spans line) ∧
    ∀ t ∈ (ofLanguage .cpp).spans line, t ∉ (ofLanguage .c).spans line →
      t.kind = .keyword ∧ t.word line ∈ Language.cpp.lexicon.keywords ∧
        t.word line ∉ Language.c.lexicon.keywords := by
  have cpp : Language.c.lexicon.GainsKeywords Vocabulary.cppKeywords line
      ((ofLanguage .c).spans line) ((ofLanguage .cpp).spans line) :=
    Language.cpp_addsKeywords.spans line
  refine ⟨fun x added ks adds => ?_, fun s hs => ?_, fun t ht extra => ?_⟩
  · obtain ⟨kept, new⟩ := adds.spans line
    refine ⟨kept, fun t ht other => ?_⟩
    rcases new t ht with ⟨s, hs, rfl⟩ | ⟨keyword, mem, -⟩
    · exact absurd ⟨rfl, rfl⟩ (other s hs)
    · exact ⟨keyword, mem⟩
  · rw [← Language.promote_of_mem_c hs]
    exact cpp.kept s hs
  · rcases cpp.new t ht with ⟨s, hs, rfl⟩ | ⟨keyword, mem, unlisted⟩
    · rw [Language.promote_of_mem_c hs] at extra
      exact absurd hs extra
    · refine ⟨keyword, (Language.cpp_addsKeywords.keywords _).2 (.inr mem), fun listed => ?_⟩
      exact unlisted (by simp [Lexicon.words, listed])

/-- A type that is among the new keywords. -/
theorem Highlighter.spans_addKeywords_type :
    let x : Lexicon := .ofWords ["val"] ["Int"] []
    x.AddsKeywords ["Int", "fun"] ["Int", "fun", "val"] ∧
      ⟨0, 3, .type⟩ ∈ (ofLexicon x).spans "Int" ∧
      ⟨0, 3, .keyword⟩ ∈ (ofLexicon { x with keywords := ["Int", "fun", "val"] }).spans "Int" := by
  intro x
  have words : ∀ w, w ∈ x.words ↔ w ∈ ["val"] ++ ["Int"] ++ [] :=
    fun w => Lexicon.mem_words_of_tables rfl rfl rfl
  have adds : x.AddsKeywords ["Int", "fun"] ["Int", "fun", "val"] := by
    refine ⟨fun w => ?_, fun w hw => ?_, fun d hd => ?_, rfl⟩
    · rw [show x.keywords = sortedSet ["val"] from rfl, mem_sortedSet]
      simp only [List.mem_cons, List.not_mem_nil, or_false]
      tauto
    · have table : ∀ v ∈ ["val"] ++ ["Int"] ++ [] ++ ["Int", "fun"], Wordlike v.toList := by
        decide
      exact table w (by rwa [List.mem_append, words, ← List.mem_append] at hw)
    · rw [show x.delimiters = sortedSet ['"', '\''] from rfl, mem_sortedSet] at hd
      rcases List.mem_pair.1 hd with rfl | rfl <;> decide
  have mem : ⟨0, 3, .type⟩ ∈ (ofLexicon x).spans "Int" := by
    have noMark : 'I' ∉ x.delimiters := fun mark => absurd (adds.marks 'I' mark) (by decide)
    have kind : x.kind? (.ofList "Int".toList) = some .type := by
      simp [x, Lexicon.kind?, Lexicon.ofWords, mem_sortedSet]
    have stands : StandsWhole none ("Int".toList ++ []) "Int".toList := by decide
    have word := (Lexicon.word?_eq_some_iff adds.wordlike_before).2 ⟨by decide, stands, kind⟩
    have here : Scan.token? x.rules none ("Int".toList ++ []) = some (.type, "Int".toList) :=
      (Lexicon.token?_eq_word? rfl noMark (by decide)).trans word
    have code : (ofLexicon x).isComment "Int".toList = false := by decide
    exact mem_spans_of_token? code rfl here
  exact ⟨adds, mem, ((spans_addKeywords "Int").1 x _ _ adds).1 _ mem⟩

end LineTint
