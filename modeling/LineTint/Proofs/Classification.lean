import LineTint.Proofs.BestFront
import LineTint.Proofs.Provenance

/-!
# What the kind of a span says

The kind of a span is a fact about its text: a string has delimiters at its ends and none inside,
a word is listed under its kind and under none of higher priority, and a comment is a whole line
that begins with the comment mark. `Lexicon.Classified` collects these facts for the spans of a
line; `Highlighter.classified_spans` says that they hold for every lexicon and every line. That
a word rule has nothing at a place is `Lexicon.not_standsWhole`: none of its words stands whole
there, whatever the rule was looked up for before.
-/

namespace LineTint
set_option autoImplicit false
open Pattern Text

/-- The text of a span as a word. -/
def Span.word (line : String) (s : Span) : String :=
  .ofList (s.text line)

/-- The kinds of the spans of a line are right by what the lexicon lists. -/
structure Lexicon.Classified (x : Lexicon) (line : String) (ss : List Span) : Prop where
  comment : (∃ s ∈ ss, s.kind = .comment) ↔
    x.lineComment ≠ "" ∧ x.lineComment.toList <+: line.toList.dropWhile isBlank
  whole : ∀ s ∈ ss, s.kind = .comment → ss = [⟨0, line.utf8ByteSize, .comment⟩]
  string : ∀ s ∈ ss, s.kind = .string → ∃ d mid e, s.text line = d :: (mid ++ [e]) ∧
    d ∈ x.delimiters ∧ e ∈ x.delimiters ∧ ∀ c ∈ mid, c ∉ x.delimiters
  keyword : ∀ s ∈ ss, s.kind = .keyword → s.word line ∈ x.keywords
  type : ∀ s ∈ ss, s.kind = .type → s.word line ∈ x.types ∧ s.word line ∉ x.keywords
  builtin : ∀ s ∈ ss, s.kind = .builtin →
    s.word line ∈ x.builtins ∧ s.word line ∉ x.keywords ∧ s.word line ∉ x.types

namespace Lexicon

variable {x : Lexicon} {before : Option Char} {rest m : List Char} {k : TokenKind}
  {ws : List String}

/-- Where a word rule has no token, none of its words stands whole. -/
theorem not_standsWhole (nothing : tokenOf? k (wholeWord? ws) before rest = none) {w : String}
    (hw : w ∈ ws) (ne : w ≠ "") : ¬StandsWhole before rest w.toList := by
  intro stands
  obtain ⟨p, hp⟩ : ∃ p, wholeWord? ws = some p := by
    rw [← Option.ne_none_iff_exists']
    exact fun none => ne (wholeWord?_eq_none_iff.1 none w hw)
  have front : w.toList ∈ p.fronts before rest := by
    rw [fronts_wholeWord hp, List.mem_filter]
    exact ⟨List.mem_map.2 ⟨w, mem_candidates.2 ⟨hw, ne⟩, rfl⟩, decide_eq_true stands⟩
  cases best : p.front? before rest with
  | none =>
    rw [front?, List.head?_eq_none_iff] at best
    rw [best] at front
    exact absurd front (by simp)
  | some n =>
    obtain ⟨⟨v, -, nv, rfl⟩, -⟩ := (front?_wholeWord hp).1 best
    have found : tokenOf? k (wholeWord? ws) before rest = some (k, v.toList) :=
      tokenOf?_eq_some_iff.2 ⟨rfl, mt String.toList_eq_nil_iff.1 nv, p, hp, best⟩
    exact absurd (nothing.symm.trans found) (by simp)

/-- The best front of a word rule is one of its words and stands whole, so it is no word of a rule
that has nothing at the place. -/
theorem word_of_front? {p : Pattern} (rule : wholeWord? ws = some p)
    (best : p.front? before rest = some m) :
    String.ofList m ∈ ws ∧ ∀ k vs, tokenOf? k (wholeWord? vs) before rest = none →
      String.ofList m ∉ vs := by
  obtain ⟨⟨w, hw, ne, rfl⟩, stands, -⟩ := (front?_wholeWord rule).1 best
  rw [String.ofList_toList]
  exact ⟨hw, fun _ _ nothing listed => not_standsWhole nothing listed ne stands⟩

end Lexicon

namespace Highlighter

variable {compile : String → Option Pattern} {x : Lexicon} {line : String} {s : Span}

theorem isComment_iff : (ofLexiconWith compile x).isComment line.toList = true ↔
    x.lineComment ≠ "" ∧ x.lineComment.toList <+: line.toList.dropWhile isBlank := by
  rw [isComment, Bool.and_eq_true, List.isPrefixOf_iff_prefix]
  simp [ofLexiconWith, dropBlanks]

/-- A span with the kind of comments is there in a comment line only. -/
theorem comment_of_mem_spans (hs : s ∈ (ofLexiconWith compile x).spans line)
    (kind : s.kind = .comment) : (ofLexiconWith compile x).isComment line.toList = true := by
  rcases origin_of_mem_spans hs with ⟨comment, -⟩ | ⟨-, origin⟩
  · exact comment
  · rw [kind] at origin
    cases origin

/-- **The spans of a line are classified** soundly and by priority, whatever the engine behind the
rules makes of the number pattern. -/
theorem classified_spans (compile : String → Option Pattern) (x : Lexicon) (line : String) :
    x.Classified line ((ofLexiconWith compile x).spans line) where
  comment := by
    have mark : (ofLexiconWith compile x).isComment line.toList = true ↔ _ := isComment_iff
    rw [← mark]
    constructor
    · rintro ⟨s, hs, kind⟩
      exact comment_of_mem_spans hs kind
    · intro comment
      rw [spans_eq_comment comment]
      exact ⟨_, List.mem_singleton_self _, rfl⟩
  whole s hs kind := spans_eq_comment (comment_of_mem_spans hs kind)
  string s hs kind := by
    cases origin_of_kind hs kind (by decide) with
    | string rule best => exact front?_delimited rule best
  keyword s hs kind := by
    cases origin_of_kind hs kind (by decide) with
    | keyword rule best => exact (Lexicon.word_of_front? rule best).1
  type s hs kind := by
    cases origin_of_kind hs kind (by decide) with
    | type rule best noKeyword =>
      obtain ⟨listed, notListed⟩ := Lexicon.word_of_front? rule best
      exact ⟨listed, notListed _ _ noKeyword⟩
  builtin s hs kind := by
    cases origin_of_kind hs kind (by decide) with
    | builtin rule best noKeyword noType =>
      obtain ⟨listed, notListed⟩ := Lexicon.word_of_front? rule best
      exact ⟨listed, notListed _ _ noKeyword, notListed _ _ noType⟩

end Highlighter
end LineTint
