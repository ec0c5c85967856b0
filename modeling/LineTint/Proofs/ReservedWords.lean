import LineTint.Highlighter
import LineTint.Proofs.Replay
import LineTint.Proofs.RuleFronts

/-!
# Reserved words between blanks

A reserved word that stands between blanks is found wherever the scan has been before: no token
runs over the blank in front of it (`Lexicon.prefix_of_token?`), and at the word itself no longer
listed word, no number and no string is in its way (`Lexicon.token?_keyword`). What the tables
have to do with it is in two checks, `WordsApart` and `Bounded`. The words of Kotlin with an
exclamation mark fail the second: in front of the mark there is no word boundary.
-/

namespace LineTint
set_option autoImplicit false
open Pattern Text

/-! ## Listed words with blanks -/

/-- The ways to cut a text in two at a blank, which belongs to neither part. -/
def Text.blankCuts : List Char → List (List Char × List Char)
  | [] => []
  | c :: cs =>
    let later := (blankCuts cs).map fun s => (c :: s.1, s.2)
    if isBlank c then ([], cs) :: later else later

theorem Text.mem_blankCuts {d : Char} {a b : List Char} (h : isBlank d = true) :
    (a, b) ∈ blankCuts (a ++ d :: b) := by
  induction a with
  | nil => simp [blankCuts, h]
  | cons c a ih =>
    have later : (c :: a, b) ∈ (blankCuts (a ++ d :: b)).map fun s => (c :: s.1, s.2) :=
      List.mem_map.2 ⟨(a, b), ih, rfl⟩
    simp only [List.cons_append, blankCuts]
    split
    · exact List.mem_cons_of_mem _ later
    · exact later

/-- Where a listed word has a blank, no reserved word is its part in front of the blank, and none
begins like its part behind the blank. -/
def WordsApart (reserved listed : List String) : Prop :=
  ∀ v ∈ listed, ∀ s ∈ blankCuts v.toList, ∀ w ∈ reserved,
    s.1 ≠ w.toList ∧ ¬s.2 <+: w.toList ∧ ¬w.toList <+: s.2

instance (reserved listed : List String) : Decidable (WordsApart reserved listed) :=
  inferInstanceAs (Decidable (∀ v ∈ listed, ∀ s ∈ blankCuts v.toList, ∀ w ∈ reserved, _))

/-- A text whose ends are word characters, and that does not begin like a number. -/
def Bounded (w : List Char) : Prop :=
  (w.head?.any fun c => isWord c && !CharClass.asciiDigit.has c) = true ∧
    w.getLast?.any isWord = true

instance (w : List Char) : Decidable (Bounded w) :=
  inferInstanceAs (Decidable (_ ∧ _))

/-! ## The token at a place -/

theorem Bounded.exists_cons {w : List Char} (h : Bounded w) :
    ∃ c cs, w = c :: cs ∧ isWord c = true ∧ CharClass.asciiDigit.has c = false := by
  obtain ⟨first, -⟩ := h
  cases w with
  | nil => exact absurd first (by simp)
  | cons c cs => exact ⟨c, cs, rfl, by simpa using first⟩

/-- Between characters that are no word characters a bounded text stands whole. -/
theorem Bounded.standsWhole {before : Option Char} {w post : List Char} (h : Bounded w)
    (left : before.any isWord = false) (right : post.head?.any isWord = false) :
    StandsWhole before (w ++ post) w := by
  obtain ⟨c, w, rfl, begins, -⟩ := h.exists_cons
  obtain ⟨-, last⟩ := h
  refine ⟨List.prefix_append _ _, ?_, ?_⟩
  · simp [isBoundary, left, begins]
  · have next : (c :: w ++ post)[(c :: w).length]? = post.head? := by
      rw [List.getElem?_append_right (Nat.le_refl _), Nat.sub_self, List.head?_eq_getElem?]
    have ends : (lastOf before (c :: w)).any isWord = true := by
      simp only [List.getLast?_cons, Option.any_some] at last
      simp [lastOf_eq, List.getLast?_cons, last]
    rw [next, isBoundary, ends, right]
    rfl

namespace Lexicon

variable {x : Lexicon} {before : Option Char} {w post m : List Char} {k : TokenKind}

/-- No token runs over a blank in front of a reserved word. -/
theorem prefix_of_token? {w : String} (usual : x.numberPattern = defaultNumberPattern)
    (apart : WordsApart x.keywords x.words) (hw : w ∈ x.keywords) {v : List Char} (ne : v ≠ [])
    (blank : ∀ c ∈ v.getLast?, isBlank c = true) (outside : ∀ c ∈ v, c ∉ x.delimiters)
    (h : Scan.token? x.rules before (v ++ (w.toList ++ post)) = some (k, m)) : m <+: v := by
  rcases List.prefix_or_prefix_of_prefix (Scan.token?_spec h).2 (List.prefix_append v _) with
    stays | ⟨b, rfl⟩
  · exact stays
  obtain ⟨a, d, rfl⟩ : ∃ a d, v = a ++ [d] := ⟨_, _, (List.dropLast_append_getLast ne).symm⟩
  have hd : isBlank d = true := blank d (by simp)
  have behind : b <+: w.toList ++ post := (List.prefix_append_right_inj _).1 (Scan.token?_spec h).2
  exfalso
  rcases token?_cases usual h with ⟨e, n, eq, he⟩ | digits | ⟨u, hu, eq, -⟩
  · have : e ∈ a ++ [d] := by
      cases a with
      | nil =>
        obtain ⟨rfl, -⟩ : d = e ∧ b = n := by simpa using eq
        simp
      | cons c a =>
        obtain ⟨rfl, -⟩ : c = e ∧ a ++ d :: b = n := by simpa using eq
        simp
    exact outside e this he
  · exact absurd hd (by simp [isBlank_of_mem_number digits (c := d) (by simp)])
  · have cut : (a, b) ∈ blankCuts u.toList := by
      rw [eq, List.append_assoc]
      exact mem_blankCuts hd
    obtain ⟨-, shorter, longer⟩ := apart u hu _ cut w hw
    rcases List.prefix_or_prefix_of_prefix behind (List.prefix_append w.toList post) with le | ge
    · exact shorter le
    · exact longer ge

/-- A reserved word in front of a blank is the longest that stands whole. -/
theorem tokenOf?_keyword {w : String} (apart : WordsApart x.keywords x.words)
    (hw : w ∈ x.keywords) (ne : w.toList ≠ [])
    (stands : StandsWhole before (w.toList ++ post) w.toList)
    (right : ∀ c ∈ post.head?, isBlank c = true) :
    tokenOf? .keyword (wholeWord? x.keywords) before (w.toList ++ post) =
      some (.keyword, w.toList) := by
  have ne' : w ≠ "" := mt String.toList_eq_nil_iff.2 ne
  obtain ⟨p, hp⟩ : ∃ p, wholeWord? x.keywords = some p := by
    rw [← Option.ne_none_iff_exists']
    exact fun none => ne' (wholeWord?_eq_none_iff.1 none w hw)
  refine tokenOf?_eq_some_iff.2 ⟨rfl, ne, p, hp, (front?_wholeWord hp).2 ?_⟩
  refine ⟨⟨w, hw, ne', rfl⟩, stands, fun v hv _ sv => ?_⟩
  rw [← byteLength_toList]
  rcases List.prefix_or_prefix_of_prefix sv.1 stands.1 with ⟨t, ht⟩ | ⟨t, ht⟩
  · rw [← ht, byteLength_append]
    exact Nat.le_add_right _ _
  · cases t with
    | nil => rw [← ht, List.append_nil]
    | cons d t =>
      -- A longer word would go on with the blank behind this one.
      have next : d :: t <+: post := by
        have := sv.1
        rw [← ht] at this
        exact (List.prefix_append_right_inj _).1 this
      have hd : isBlank d = true := by
        obtain ⟨r, rfl⟩ := next
        exact right d rfl
      have cut := mem_blankCuts (a := w.toList) (b := t) hd
      rw [ht] at cut
      exact absurd rfl (apart v (by simp [words, hv]) _ cut w hw).1

/-- At a bounded reserved word in front of a blank the token is that word. -/
theorem token?_keyword {w : String} (usual : x.numberPattern = defaultNumberPattern)
    (marks : ∀ d ∈ x.delimiters, isWord d = false) (apart : WordsApart x.keywords x.words)
    (hw : w ∈ x.keywords) (bounded : Bounded w.toList) (left : before.any isWord = false)
    (right : ∀ c ∈ post.head?, isBlank c = true) :
    Scan.token? x.rules before (w.toList ++ post) = some (.keyword, w.toList) := by
  have after : post.head?.any isWord = false := by
    cases e : post.head? with
    | none => rfl
    | some c => exact isWord_of_isBlank (right c e)
  have stands := bounded.standsWhole left after
  obtain ⟨c, cs, hc, word, digit⟩ := bounded.exists_cons
  have keyword := tokenOf?_keyword apart hw (by simp [hc]) stands right
  have mark : c ∉ x.delimiters := fun hd => absurd word (by simp [marks c hd])
  rw [token?_rules, keyword, usual, hc, List.cons_append, tokenOf?_string_eq_none mark,
    tokenOf?_number_eq_none digit]
  rfl

/-- Where a place is no word boundary, only a string can begin. -/
theorem token?_eq_none (usual : x.numberPattern = defaultNumberPattern) {c : Char}
    (mark : c ∉ x.delimiters) (inside : isBoundary before c = false) :
    Scan.token? x.rules before (c :: post) = none := by
  rw [Option.eq_none_iff_forall_ne_some]
  rintro ⟨k, m⟩ found
  obtain ⟨-, t, ht⟩ := Scan.token?_spec found
  rcases token?_cases usual found with ⟨d, n, rfl, hd⟩ | digits | ⟨w, -, -, stands⟩
  · obtain ⟨rfl, -⟩ := List.cons.inj ht
    exact mark hd
  · obtain ⟨-, bound, -⟩ := mem_fronts_number.1 digits
    exact absurd bound (by simpa using inside)
  · exact absurd stands.2.1 (by simpa using inside)

end Lexicon

/-! ## The tables -/

theorem Text.mem_sortedSet {α : Type} [LE α] [DecidableLE α] [BEq α] [LawfulBEq α] {xs : List α}
    {a : α} : a ∈ sortedSet xs ↔ a ∈ xs := by
  rw [sortedSet, List.mem_eraseDups, List.mem_mergeSort]

/-- A lexicon lists the words of its tables. -/
theorem Lexicon.mem_words_of_tables {x : Lexicon} {ks ts bs : List String} {v : String}
    (hk : x.keywords = sortedSet ks) (ht : x.types = sortedSet ts)
    (hb : x.builtins = sortedSet bs) : v ∈ x.words ↔ v ∈ ks ++ ts ++ bs := by
  simp only [Lexicon.words, hk, ht, hb, List.mem_append, mem_sortedSet]

theorem Lexicon.forall_words_of_tables {x : Lexicon} {ks ts bs : List String} {p : String → Prop}
    (hk : x.keywords = sortedSet ks) (ht : x.types = sortedSet ts) (hb : x.builtins = sortedSet bs)
    (check : ∀ v ∈ ks ++ ts ++ bs, p v) : ∀ v ∈ x.words, p v :=
  fun v hv => check v ((mem_words_of_tables hk ht hb).1 hv)

/-- The words of a lexicon are apart if they are so in the order of their tables. -/
theorem WordsApart.of_tables {x : Lexicon} {ks ts bs : List String}
    (hk : x.keywords = sortedSet ks) (ht : x.types = sortedSet ts) (hb : x.builtins = sortedSet bs)
    (check : WordsApart ks (ks ++ ts ++ bs)) : WordsApart x.keywords x.words := by
  intro v hv s hs w hw
  rw [hk, mem_sortedSet] at hw
  exact Lexicon.forall_words_of_tables hk ht hb check v hv s hs w hw

/-- A reserved word is bounded, or it is one of the two that are a bounded one behind an
exclamation mark. -/
def BoundedOrMarked (reserved : List String) : Prop :=
  ∀ w ∈ reserved, Bounded w.toList ∨ (w = "!in" ∨ w = "!is") ∧
    ∃ v ∈ reserved, Bounded v.toList ∧ w.toList = '!' :: v.toList

instance (reserved : List String) : Decidable (BoundedOrMarked reserved) :=
  inferInstanceAs (Decidable (∀ w ∈ reserved, _))

theorem BoundedOrMarked.of_table {x : Lexicon} {ks : List String} (hk : x.keywords = sortedSet ks)
    (check : BoundedOrMarked ks) : BoundedOrMarked x.keywords := by
  intro w hw
  rw [hk, mem_sortedSet] at hw
  rcases check w hw with bounded | ⟨marked, v, hv, rest⟩
  · exact .inl bounded
  · refine .inr ⟨marked, v, ?_, rest⟩
    rwa [hk, mem_sortedSet]

namespace Language

variable (l : Language)

theorem usual_numbers : l.lexicon.numberPattern = Lexicon.defaultNumberPattern := by
  cases l <;> rfl

theorem mem_delimiters {d : Char} : d ∈ l.lexicon.delimiters ↔ d = '"' ∨ d = '\'' := by
  have marks : l.lexicon.delimiters = sortedSet ['"', '\''] := by cases l <;> rfl
  simp [marks, mem_sortedSet]

theorem wordsApart : WordsApart l.lexicon.keywords l.lexicon.words := by
  cases l <;> exact .of_tables rfl rfl rfl (by decide +kernel)

theorem boundedOrMarked : BoundedOrMarked l.lexicon.keywords := by
  cases l <;> exact .of_table rfl (by decide +kernel)

end Language

/-! ## The scan at a reserved word -/

/-- A word stands alone in a line that is no comment: between blanks or the ends of the line,
and behind no delimiter. -/
structure Language.StandsAlone (l : Language) (pre w post : String) : Prop where
  code : (Highlighter.ofLanguage l).isComment (pre ++ w ++ post).toList = false
  outside : ∀ c ∈ pre.toList, c ∉ l.lexicon.delimiters
  left : ∀ c ∈ pre.toList.getLast?, isBlank c = true
  right : ∀ c ∈ post.toList.head?, isBlank c = true

section StandsAlone

variable {l : Language} {pre w post : String}

/-- The scan comes to a reserved word that stands alone. -/
theorem Language.StandsAlone.scanned (alone : l.StandsAlone pre w post)
    (hw : w ∈ l.lexicon.keywords) :
    ∃ earlier later, (Highlighter.ofLanguage l).spans (pre ++ w ++ post) = earlier ++ later ∧
      Scan.Scanned l.lexicon.rules pre.toList (w.toList ++ post.toList) later ∧
      ∀ s ∈ earlier, s.stop ≤ pre.utf8ByteSize := by
  have line : (pre ++ w ++ post).toList = pre.toList ++ (w.toList ++ post.toList) := by simp
  have whole := Scan.spans_scanned l.lexicon.rules (pre ++ w ++ post).toList
  rw [line] at whole
  rw [Highlighter.spans_eq_scan alone.code, line, ← byteLength_toList]
  refine whole.split fun u v k m e ne found => ?_
  refine Lexicon.prefix_of_token? l.usual_numbers l.wordsApart hw ne (fun c hc => ?_)
    (fun c hc => alone.outside c ?_) found
  · have last : pre.toList.getLast? = v.getLast? := by
      rw [e, List.getLast?_append_of_ne_nil u ne]
    exact alone.left c (last ▸ hc)
  · rw [e]
    exact List.mem_append_right u hc

theorem Language.StandsAlone.left_isWord (alone : l.StandsAlone pre w post) :
    (lastOf none pre.toList).any isWord = false := by
  rw [lastOf_none]
  cases e : pre.toList.getLast? with
  | none => rfl
  | some c => exact isWord_of_isBlank (alone.left c e)

/-- A bounded reserved word is the next span of a scan that has come to it. -/
theorem Language.mem_of_scanned {a : List Char} {ss : List Span} (hw : w ∈ l.lexicon.keywords)
    (bounded : Bounded w.toList) (left : (lastOf none a).any isWord = false)
    (right : ∀ c ∈ post.toList.head?, isBlank c = true)
    (h : Scan.Scanned l.lexicon.rules a (w.toList ++ post.toList) ss) :
    ⟨byteLength a, byteLength a + w.utf8ByteSize, .keyword⟩ ∈ ss := by
  have marks : ∀ d ∈ l.lexicon.delimiters, isWord d = false := by
    intro d hd
    rcases l.mem_delimiters.1 hd with rfl | rfl <;> decide
  obtain ⟨later, rfl, -⟩ := h.of_token
    (Lexicon.token?_keyword l.usual_numbers marks l.wordsApart hw bounded left right)
  rw [← byteLength_toList]
  exact List.mem_cons_self

theorem Language.StandsAlone.mem_of_bounded (alone : l.StandsAlone pre w post)
    (hw : w ∈ l.lexicon.keywords) (bounded : Bounded w.toList) :
    ⟨pre.utf8ByteSize, pre.utf8ByteSize + w.utf8ByteSize, .keyword⟩ ∈
      (Highlighter.ofLanguage l).spans (pre ++ w ++ post) := by
  obtain ⟨earlier, later, e, scanned, -⟩ := alone.scanned hw
  have mem := l.mem_of_scanned hw bounded alone.left_isWord alone.right scanned
  rw [byteLength_toList] at mem
  rw [e]
  exact List.mem_append_right earlier mem

/-- In front of an exclamation mark behind a blank is no word boundary, so the scan steps over the
mark and finds the word behind it. -/
theorem Language.StandsAlone.mem_of_marked {v : String} (alone : l.StandsAlone pre w post)
    (hw : w ∈ l.lexicon.keywords) (hv : v ∈ l.lexicon.keywords) (bounded : Bounded v.toList)
    (shape : w.toList = '!' :: v.toList) :
    ⟨pre.utf8ByteSize, pre.utf8ByteSize + w.utf8ByteSize, .keyword⟩ ∉
        (Highlighter.ofLanguage l).spans (pre ++ w ++ post) ∧
      ⟨pre.utf8ByteSize + 1, pre.utf8ByteSize + w.utf8ByteSize, .keyword⟩ ∈
        (Highlighter.ofLanguage l).spans (pre ++ w ++ post) := by
  obtain ⟨earlier, later, e, scanned, stop⟩ := alone.scanned hw
  have noDelimiter : '!' ∉ l.lexicon.delimiters := by simp [l.mem_delimiters]
  have mark : isWord '!' = false := by decide
  have inside : isBoundary (lastOf none pre.toList) '!' = false := by
    rw [isBoundary, alone.left_isWord, Option.any_some, mark]
    rfl
  have behind : byteLength (pre.toList ++ ['!']) = pre.utf8ByteSize + 1 := by
    rw [byteLength_append, byteLength_toList]
    rfl
  have size : w.utf8ByteSize = 1 + v.utf8ByteSize := by
    rw [← byteLength_toList, shape, byteLength_cons, byteLength_toList]
    rfl
  rw [shape] at scanned
  have skipped := scanned.of_none (Lexicon.token?_eq_none l.usual_numbers noDelimiter inside)
  rw [e]
  constructor
  · -- What was found before ends at the mark at the latest, what is found later begins behind it.
    intro h
    rcases List.mem_append.1 h with h | h
    · have := stop _ h
      simp only at this
      omega
    · obtain ⟨a, m, b, -, -, start, -⟩ := skipped.cut.exists_of_mem h
      simp only at start
      omega
  · have mem := l.mem_of_scanned hv bounded (by simp [mark]) alone.right skipped
    rw [behind, Nat.add_assoc, ← size] at mem
    exact List.mem_append_right earlier mem

/-- **A reserved word that stands alone** is found as a keyword, but for the two with an
exclamation mark; of these the word behind the mark is found instead. -/
theorem Highlighter.keyword_mem_spans_iff (hw : w ∈ l.lexicon.keywords)
    (alone : l.StandsAlone pre w post) :
    (⟨pre.utf8ByteSize, pre.utf8ByteSize + w.utf8ByteSize, .keyword⟩ ∈
        (ofLanguage l).spans (pre ++ w ++ post) ↔ w ≠ "!in" ∧ w ≠ "!is") ∧
      (w = "!in" ∨ w = "!is" →
        ⟨pre.utf8ByteSize + 1, pre.utf8ByteSize + w.utf8ByteSize, .keyword⟩ ∈
          (ofLanguage l).spans (pre ++ w ++ post)) := by
  rcases l.boundedOrMarked w hw with bounded | ⟨marked, v, hv, bounded, shape⟩
  · have unmarked : w ≠ "!in" ∧ w ≠ "!is" := by
      constructor <;> rintro rfl <;> exact absurd bounded (by decide)
    refine ⟨iff_of_true (alone.mem_of_bounded hw bounded) unmarked, fun h => ?_⟩
    rcases h with rfl | rfl
    · exact absurd rfl unmarked.1
    · exact absurd rfl unmarked.2
  · obtain ⟨notMem, mem⟩ := alone.mem_of_marked hw hv bounded shape
    have marked' : ¬(w ≠ "!in" ∧ w ≠ "!is") := by
      rintro ⟨notIn, notIs⟩
      rcases marked with rfl | rfl
      · exact notIn rfl
      · exact notIs rfl
    exact ⟨iff_of_false notMem marked', fun _ => mem⟩

end StandsAlone

theorem Language.mem_keywords_of_table {l : Language} {ks : List String} {w : String}
    (hk : l.lexicon.keywords = sortedSet ks) (hw : w ∈ ks) : w ∈ l.lexicon.keywords := by
  rwa [hk, mem_sortedSet]

theorem Highlighter.groupBy_mem_spans :
    Language.sql.StandsAlone "SELECT a FROM t " "GROUP BY" " a" ∧
      ⟨16, 24, .keyword⟩ ∈ (ofLanguage .sql).spans "SELECT a FROM t GROUP BY a" := by
  have alone : Language.sql.StandsAlone "SELECT a FROM t " "GROUP BY" " a" := by
    have outside : '"' ∉ "SELECT a FROM t ".toList ∧ '\'' ∉ "SELECT a FROM t ".toList := by decide
    have last : "SELECT a FROM t ".toList.getLast? = some ' ' := by decide
    have first : " a".toList.head? = some ' ' := by decide
    have blank : isBlank ' ' = true := by decide
    refine ⟨by decide, fun c hc delimiter => ?_, fun c hc => ?_, fun c hc => ?_⟩
    · rcases (Language.mem_delimiters .sql).1 delimiter with rfl | rfl
      · exact outside.1 hc
      · exact outside.2 hc
    · obtain rfl := Option.some.inj (last.symm.trans hc)
      exact blank
    · obtain rfl := Option.some.inj (first.symm.trans hc)
      exact blank
  have reserved := Language.mem_keywords_of_table (l := .sql) rfl
    (show "GROUP BY" ∈ Vocabulary.sqlKeywords by decide)
  exact ⟨alone, (keyword_mem_spans_iff reserved alone).1.2 (by decide)⟩

theorem Highlighter.notIn_notMem_spans :
    "!in" ∈ Language.kotlin.lexicon.keywords ∧ Language.kotlin.StandsAlone "" "!in" "" ∧
      ⟨0, 3, .keyword⟩ ∉ (ofLanguage .kotlin).spans "!in" := by
  have alone : Language.kotlin.StandsAlone "" "!in" "" :=
    ⟨by decide, by simp, by simp, by simp⟩
  have marked := Language.mem_keywords_of_table (l := .kotlin) rfl
    (show "!in" ∈ Vocabulary.kotlinKeywords by decide)
  have word := Language.mem_keywords_of_table (l := .kotlin) rfl
    (show "in" ∈ Vocabulary.kotlinKeywords by decide)
  exact ⟨marked, alone, (alone.mem_of_marked marked word (by decide) rfl).1⟩

end LineTint
