import LineTint.Pattern.WholeWord
import LineTint.Proofs.Search

/-!
# The longest whole word

The pattern of a list of words is an alternation of literals between two word boundaries.
`front?_wholeWord` says that its best front is the longest listed word that stands whole at the
place: the candidates are tried from the longest on, and one whose end is no boundary gives way
to the next. Of the words that consist of word characters only one stands whole at a place
(`StandsWhole.eq_of_wordlike`).
-/

namespace LineTint.Text
set_option autoImplicit false

/-! ## Word boundaries -/

theorem isBoundary_of_isWord {before : Option Char} (h : before.any isWord = true)
    (after : Option Char) : isBoundary before after = !after.any isWord := by
  rw [isBoundary, h, Bool.true_bne]

theorem isBoundary_of_not_isWord {before : Option Char} (h : before.any isWord = false)
    (after : Option Char) : isBoundary before after = after.any isWord := by
  rw [isBoundary, h, Bool.false_bne]

/-- A text of word characters, at least one. -/
def Wordlike (w : List Char) : Prop :=
  w ≠ [] ∧ ∀ c ∈ w, isWord c = true

instance (w : List Char) : Decidable (Wordlike w) :=
  decidable_of_iff (w ≠ [] ∧ w.all isWord = true) (and_congr_right fun _ => List.all_eq_true)

theorem Wordlike.lastOf_isWord {w : List Char} (h : Wordlike w) (before : Option Char) :
    (lastOf before w).any isWord = true := by
  rw [lastOf_eq, List.getLast?_eq_some_getLast h.1]
  exact h.2 _ (List.getLast_mem h.1)

/-- Inside a text of word characters is no word boundary. -/
theorem Wordlike.isBoundary_inside {u v : List Char} {c : Char} (h : Wordlike (u ++ c :: v))
    (ne : u ≠ []) (before : Option Char) : isBoundary (lastOf before u) c = false := by
  have front : Wordlike u := ⟨ne, fun d hd => h.2 d (List.mem_append_left _ hd)⟩
  have next : isWord c = true := h.2 c (by simp)
  rw [isBoundary_of_isWord (front.lastOf_isWord before), Option.any_some, next]
  rfl

end LineTint.Text

namespace LineTint.Pattern
set_option autoImplicit false
open Text

variable {words : List String} {p : Pattern} {before : Option Char} {text : List Char}

theorem has_single (c d : Char) : (CharClass.single c).has d = decide (d = c) := by
  have := CharClass.has_ofList [c] d
  simpa [CharClass.ofList, CharClass.has] using this

theorem fronts_literal (w : List Char) (before : Option Char) (text : List Char) :
    (literal w).fronts before text = if w <+: text then [w] else [] := by
  induction w generalizing before text with
  | nil => simp [literal]
  | cons c w ih =>
    show (Pattern.seq (.char (.single c)) (literal w)).fronts before text = _
    rw [fronts_seq]
    cases text with
    | nil => simp [fronts_char_nil]
    | cons d text =>
      rw [fronts_char_cons, has_single]
      by_cases h : d = c
      · subst h
        simp only [decide_true, if_true, List.flatMap_cons, List.flatMap_nil, List.append_nil,
          extend_cons, extend_nil, ih, List.cons_prefix_cons, true_and]
        split <;> rfl
      · have : ¬c :: w <+: d :: text := fun e => h (List.cons_prefix_cons.1 e).1.symm
        simp [h, this]

theorem fronts_anyOf (ps : List Pattern) (before : Option Char) (text : List Char) :
    (anyOf ps).fronts before text = ps.flatMap fun p => p.fronts before text := by
  induction ps with
  | nil => cases text <;> rfl
  | cons p ps ih =>
    show (Pattern.alt p (anyOf ps)).fronts before text = _
    rw [fronts_alt, ih, List.flatMap_cons]

/-- The text `w` stands at the front of `text`, with a word boundary at each of its ends. -/
def StandsWhole (before : Option Char) (text w : List Char) : Prop :=
  w <+: text ∧ isBoundary before text.head? = true ∧
    isBoundary (lastOf before w) text[w.length]? = true

instance (before : Option Char) (text w : List Char) : Decidable (StandsWhole before text w) :=
  inferInstanceAs (Decidable (_ ∧ _ ∧ _))

/-- The fronts of a word pattern are the candidates that stand whole, in their order. -/
theorem fronts_wholeWord (h : wholeWord? words = some p) :
    p.fronts before text =
      ((candidates words).map String.toList).filter fun w =>
        decide (StandsWhole before text w) := by
  have shape : p = .seq (.anchor .boundary)
      (.seq (anyOf ((candidates words).map fun v => literal v.toList)) (.anchor .boundary)) := by
    unfold wholeWord? at h
    split at h
    · exact absurd h (by simp)
    · rename_i w ws e
      rw [e]
      exact (Option.some.inj h).symm
  have one : ∀ w : List Char, ((literal w).fronts before text).flatMap
      ((Pattern.anchor .boundary).extend before text) =
        if w <+: text ∧ isBoundary (lastOf before w) text[w.length]? = true then [w] else [] := by
    intro w
    rw [fronts_literal]
    by_cases front : w <+: text
    · by_cases bound : isBoundary (lastOf before w) text[w.length]? = true
      · simp [front, bound, extend, Anchor.holds_boundary, List.head?_drop]
      · simp [front, bound, extend, Anchor.holds_boundary, List.head?_drop]
    · simp [front]
  rw [shape, fronts_seq, fronts_anchor]
  by_cases bound : isBoundary before text.head? = true
  · have holds : Anchor.boundary.holds before text.head? = true := bound
    simp only [holds, if_true, List.flatMap_cons, List.flatMap_nil, List.append_nil, extend_nil,
      fronts_seq, fronts_anyOf, List.flatMap_assoc, List.flatMap_map, one, StandsWhole, bound,
      true_and]
    induction candidates words with
    | nil => rfl
    | cons w ws ih =>
      rw [List.flatMap_cons, List.map_cons, List.filter_cons, ih]
      split <;> simp_all
  · have fails : Anchor.boundary.holds before text.head? = false := Bool.eq_false_iff.2 bound
    simp [fails, StandsWhole, bound]

/-! ## Words of word characters -/

theorem StandsWhole.eq_of_prefix {u v : List Char} (su : StandsWhole before text u) (ne : u ≠ [])
    (hv : Wordlike v) (front : v <+: text) (h : u <+: v) : u = v := by
  obtain ⟨t, rfl⟩ := h
  cases t with
  | nil => exact (List.append_nil u).symm
  | cons c t =>
    obtain ⟨r, rfl⟩ := front
    have next : (u ++ c :: t ++ r)[u.length]? = some c := by simp
    have ends := su.2.2
    rw [next, hv.isBoundary_inside ne] at ends
    exact absurd ends (by simp)

/-- **One text of word characters** stands whole at a place. -/
theorem StandsWhole.eq_of_wordlike {u v : List Char} (su : StandsWhole before text u)
    (sv : StandsWhole before text v) (hu : Wordlike u) (hv : Wordlike v) : u = v := by
  rcases List.prefix_or_prefix_of_prefix su.1 sv.1 with h | h
  · exact su.eq_of_prefix hu.1 hv sv.1 h
  · exact (sv.eq_of_prefix hv.1 hu su.1 h).symm

/-! ## The order of the candidates -/

theorem mem_candidates {w : String} : w ∈ candidates words ↔ w ∈ words ∧ w ≠ "" := by
  simp [candidates, List.mem_eraseDups]

theorem sublist_eraseDups {α : Type} [BEq α] (xs : List α) : xs.eraseDups.Sublist xs := by
  induction xs using eraseDups_induction with
  | nil => exact .slnil
  | cons x xs ih =>
    rw [List.eraseDups_cons]
    exact (ih.trans List.filter_sublist).cons_cons x

/-- Longer candidates stand before shorter ones. -/
theorem pairwise_candidates (words : List String) :
    (candidates words).Pairwise fun v w => w.utf8ByteSize ≤ v.utf8ByteSize := by
  have trans : ∀ u v w : String, tryBefore u v = true → tryBefore v w = true →
      tryBefore u w = true := by
    intro u v w huv hvw
    simp only [tryBefore, Bool.or_eq_true, Bool.and_eq_true, decide_eq_true_eq] at huv hvw ⊢
    rcases huv with huv | ⟨huv, luv⟩
    · exact .inl (by omega)
    · rcases hvw with hvw | ⟨hvw, lvw⟩
      · exact .inl (by omega)
      · exact .inr ⟨huv.trans hvw, String.le_trans luv lvw⟩
  have total : ∀ v w : String, (tryBefore v w || tryBefore w v) = true := by
    intro v w
    simp only [tryBefore, Bool.or_eq_true, Bool.and_eq_true, decide_eq_true_eq]
    rcases Nat.lt_trichotomy v.utf8ByteSize w.utf8ByteSize with lt | eq | gt
    · exact .inr (.inl lt)
    · rcases String.le_total v w with le | ge
      · exact .inl (.inr ⟨eq, le⟩)
      · exact .inr (.inr ⟨eq.symm, ge⟩)
    · exact .inl (.inl gt)
  have sorted := List.pairwise_mergeSort trans total (words.filter (· ≠ ""))
  refine (sorted.sublist (sublist_eraseDups _)).imp fun {v w} h => ?_
  simp only [tryBefore, Bool.or_eq_true, Bool.and_eq_true, decide_eq_true_eq] at h
  omega

theorem wholeWord?_eq_none_iff : wholeWord? words = none ↔ ∀ w ∈ words, w = "" := by
  have empty : wholeWord? words = none ↔ candidates words = [] := by
    unfold wholeWord?
    split <;> simp_all
  rw [empty, List.eq_nil_iff_forall_not_mem]
  simp only [mem_candidates, not_and, not_not]

/-- **The longest whole word** is the best front of a word pattern. -/
theorem front?_wholeWord (h : wholeWord? words = some p) {m : List Char} :
    p.front? before text = some m ↔
      (∃ w ∈ words, w ≠ "" ∧ w.toList = m) ∧ StandsWhole before text m ∧
        ∀ v ∈ words, v ≠ "" → StandsWhole before text v.toList → v.utf8ByteSize ≤ byteLength m := by
  have sound : ∀ {n}, p.front? before text = some n →
      (∃ w ∈ words, w ≠ "" ∧ w.toList = n) ∧ StandsWhole before text n ∧
        ∀ v ∈ words, v ≠ "" → StandsWhole before text v.toList →
          v.utf8ByteSize ≤ byteLength n := by
    intro n hn
    rw [front?, fronts_wholeWord h, List.head?_filter, List.find?_map, Option.map_eq_some_iff] at hn
    obtain ⟨w, hw, rfl⟩ := hn
    obtain ⟨stands, longer, shorter, e, fail⟩ := List.find?_eq_some_iff_append.1 hw
    have mem : w ∈ candidates words := by simp [e]
    obtain ⟨hw, ne⟩ := mem_candidates.1 mem
    refine ⟨⟨w, hw, ne, rfl⟩, by simpa using stands, fun v hv nv sv => ?_⟩
    rw [byteLength_toList]
    have hv := mem_candidates.2 ⟨hv, nv⟩
    have sorted := pairwise_candidates words
    rw [e] at hv sorted
    rcases List.mem_append.1 hv with hv | hv
    · exact absurd sv (by simpa using fail v hv)
    · rcases List.mem_cons.1 hv with rfl | hv
      · exact Nat.le_refl _
      · exact (List.pairwise_cons.1 (List.pairwise_append.1 sorted).2.1).1 v hv
  refine ⟨sound, fun ⟨⟨w, hw, ne, e⟩, stands, longest⟩ => ?_⟩
  subst e
  cases best : p.front? before text with
  | none =>
    rw [front?, fronts_wholeWord h, List.head?_filter, List.find?_eq_none] at best
    have := best w.toList (List.mem_map.2 ⟨w, mem_candidates.2 ⟨hw, ne⟩, rfl⟩)
    exact absurd (decide_eq_true stands) this
  | some n =>
    obtain ⟨⟨v, hv, nv, rfl⟩, sv, longest'⟩ := sound best
    have le := longest v hv nv sv
    have ge := longest' w hw ne stands
    rw [← byteLength_toList] at le ge
    have fits := prefix_of_byteLength_le sv.1 stands.1 le
    have fits' := prefix_of_byteLength_le stands.1 sv.1 ge
    rw [fits.eq_of_length (Nat.le_antisymm fits.length_le fits'.length_le)]

end LineTint.Pattern
