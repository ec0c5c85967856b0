import LineTint.Proofs.BestFront
import LineTint.Proofs.Escaped
import LineTint.Proofs.Leftmost
import Mathlib.Data.Finset.Max

/-!
# Where words and strings are found

The matches of a rule in a line, said without patterns: the longest listed word that stands whole at
an offset (`Pattern.LongestWordAt`) and the text from a delimiter to the nearest one behind it
(`Pattern.DelimitedAt`). Searches find exactly these, also with the patterns that are read from
their written forms, since those have the same fronts (`Pattern.RuleMatches.of_rel`).
-/

namespace LineTint
set_option autoImplicit false
open Text

namespace Pattern

variable {p q : Pattern} {line : List Char}

/-! ## Rules -/

/-- A rule that is missing exactly if `absent` holds and finds the matches `M` of every line. -/
structure RuleMatches (rule? : Option Pattern) (absent : Prop)
    (M : List Char → Nat → Nat → Prop) : Prop where
  eq_none_iff : rule? = none ↔ absent
  finds : ∀ p, rule? = some p → ∀ line, p.FindsLeftmost line (M line)

theorem SameFronts.find?_eq (h : SameFronts p q) (before : Option Char) (offset : Nat)
    (text : List Char) : p.find? before offset text = q.find? before offset text := by
  induction text generalizing before offset with
  | nil => rw [find?, find?, matchLength?_eq, matchLength?_eq, h]
  | cons c text ih => rw [find?, find?, matchLength?_eq, matchLength?_eq, h, ih]

theorem SameFronts.findFrom?_eq (h : SameFronts p q) (line : List Char) (offset : Nat) :
    p.findFrom? line offset = q.findFrom? line offset := by
  simp only [findFrom?, findAt?, h.find?_eq]

/-- A rule with the same fronts finds the same matches. -/
theorem RuleMatches.of_rel {rule? rule?' : Option Pattern} {absent : Prop}
    {M : List Char → Nat → Nat → Prop} (h : RuleMatches rule? absent M)
    (same : Option.Rel SameFronts rule?' rule?) : RuleMatches rule?' absent M := by
  cases same with
  | none => exact h
  | @some q p same =>
    refine ⟨by simpa using h.eq_none_iff, fun q' e line => ?_⟩
    obtain rfl := Option.some.inj e
    obtain ⟨here, leftmost, none⟩ := h.finds p rfl line
    constructor <;> simp only [same.findFrom?_eq]
    · exact here
    · exact leftmost
    · exact none

end Pattern

/-! ## Words -/

namespace Text

/-- A word boundary lies at a byte offset of the line. -/
def BoundaryAt (line : List Char) (offset : Nat) : Prop :=
  ∃ a b, line = a ++ b ∧ byteLength a = offset ∧ isBoundary (lastOf none a) b.head? = true

/-- The text `w` stands in the line at a byte offset. -/
def OccursAt (line w : List Char) (offset : Nat) : Prop :=
  ∃ a b, line = a ++ (w ++ b) ∧ byteLength a = offset

/-- The text `w` stands in the line at a byte offset, with a word boundary at each of its ends. -/
def WholeAt (line w : List Char) (offset : Nat) : Prop :=
  BoundaryAt line offset ∧ OccursAt line w offset ∧ BoundaryAt line (offset + byteLength w)

theorem boundaryAt_append {a b : List Char} :
    BoundaryAt (a ++ b) (byteLength a) ↔ isBoundary (lastOf none a) b.head? = true := by
  constructor
  · rintro ⟨a', b', e, offset, boundary⟩
    obtain ⟨rfl, rfl⟩ := eq_of_byteLength_eq e.symm offset
    exact boundary
  · intro boundary
    exact ⟨a, b, rfl, rfl, boundary⟩

theorem occursAt_append {a b w : List Char} :
    OccursAt (a ++ b) w (byteLength a) ↔ w <+: b := by
  constructor
  · rintro ⟨a', b', e, offset⟩
    obtain ⟨-, rfl⟩ := eq_of_byteLength_eq e.symm offset
    exact List.prefix_append w b'
  · rintro ⟨b', rfl⟩
    exact ⟨a, b', rfl, rfl⟩

theorem wholeAt_append {a b w : List Char} :
    WholeAt (a ++ b) w (byteLength a) ↔ Pattern.StandsWhole (lastOf none a) b w := by
  unfold WholeAt Pattern.StandsWhole
  rw [boundaryAt_append, occursAt_append, and_left_comm]
  refine and_congr_right ?_
  rintro ⟨b, rfl⟩
  rw [← byteLength_append, ← List.append_assoc, boundaryAt_append, lastOf_append]
  rw [List.getElem?_append_right (Nat.le_refl _), Nat.sub_self, ← List.head?_eq_getElem?]

end Text

namespace Pattern

/-- The longest of the listed words that stand whole at an offset of the line ends at another. -/
def LongestWordAt (words : List String) (line : List Char) (start stop : Nat) : Prop :=
  ∃ w ∈ words, w ≠ "" ∧ WholeAt line w.toList start ∧ stop = start + w.utf8ByteSize ∧
    ∀ v ∈ words, v ≠ "" → WholeAt line v.toList start → v.utf8ByteSize ≤ w.utf8ByteSize

section Words

variable {words : List String} {p : Pattern} {line : List Char}

/-- There is a longest word wherever a listed word stands whole. -/
theorem exists_longestWordAt {start : Nat} :
    (∃ stop, LongestWordAt words line start stop) ↔
      ∃ w ∈ words, w ≠ "" ∧ WholeAt line w.toList start := by
  classical
  constructor
  · rintro ⟨_, w, hw, ne, whole, -⟩
    exact ⟨w, hw, ne, whole⟩
  · rintro ⟨w, hw, ne, whole⟩
    let there := words.toFinset.filter fun w => w ≠ "" ∧ WholeAt line w.toList start
    have some : there.Nonempty := ⟨w, by simp [there, hw, ne, whole]⟩
    obtain ⟨v, hv, longest⟩ := there.exists_max_image String.utf8ByteSize some
    simp only [there, Finset.mem_filter, List.mem_toFinset] at hv longest
    exact ⟨_, v, hv.1, hv.2.1, hv.2.2, rfl, fun u hu ne whole => longest u ⟨hu, ne, whole⟩⟩

theorem matchAt_wholeWord (h : wholeWord? words = some p) (start stop : Nat) :
    p.MatchAt line start stop ↔ LongestWordAt words line start stop := by
  constructor
  · rintro ⟨a, b, m, rfl, rfl, best, rfl⟩
    obtain ⟨⟨w, hw, ne, rfl⟩, stands, longest⟩ := (front?_wholeWord h).1 best
    rw [byteLength_toList] at longest ⊢
    exact ⟨w, hw, ne, wholeAt_append.2 stands, rfl, fun v hv ne whole =>
      longest v hv ne (wholeAt_append.1 whole)⟩
  · rintro ⟨w, hw, ne, whole, rfl, longest⟩
    obtain ⟨a, b, rfl, rfl⟩ := whole.2.1
    refine ⟨a, w.toList ++ b, w.toList, rfl, rfl, ?_, by rw [byteLength_toList]⟩
    rw [front?_wholeWord h, byteLength_toList]
    exact ⟨⟨w, hw, ne, rfl⟩, wholeAt_append.1 whole, fun v hv ne stands =>
      longest v hv ne (wholeAt_append.2 stands)⟩

end Words

/-- **The rule of listed words** is missing if all of them are empty. Otherwise a search finds the
first place from its offset on where a listed word stands whole, and there the longest such word;
so does the rule that is read from the written pattern of the words. -/
theorem wholeWord_matches (words : List String) :
    RuleMatches (wholeWord? words) (∀ w ∈ words, w = "") (LongestWordAt words) ∧
      RuleMatches ((wholeWordText? words).bind read?) (∀ w ∈ words, w = "")
        (LongestWordAt words) ∧
      ∀ line start, (∃ stop, LongestWordAt words line start stop) ↔
        ∃ w ∈ words, w ≠ "" ∧ WholeAt line w.toList start := by
  have rule : RuleMatches (wholeWord? words) (∀ w ∈ words, w = "") (LongestWordAt words) := by
    refine ⟨wholeWord?_eq_none_iff, fun p h line => ?_⟩
    refine (findsLeftmost (fun before => ?_) line).congr (matchAt_wholeWord h)
    rw [Option.eq_none_iff_forall_ne_some]
    intro m best
    obtain ⟨⟨w, -, ne, rfl⟩, ⟨front, -⟩, -⟩ := (front?_wholeWord h).1 best
    exact ne (String.toList_eq_nil_iff.1 (List.prefix_nil.1 front))
  exact ⟨rule, rule.of_rel (read?_wholeWordText words), fun line start => exists_longestWordAt⟩

/-! ## Strings -/

/-- A delimiter stands at an offset of the line, and the first delimiter or newline behind it is a
delimiter and ends at another. -/
def DelimitedAt (ds line : List Char) (start stop : Nat) : Prop :=
  ∃ a d mid e b, line = a ++ d :: (mid ++ e :: b) ∧ byteLength a = start ∧ d ∈ ds ∧
    (∀ c ∈ mid, c ∉ ds ∧ c ≠ '\n') ∧ e ∈ ds ∧ byteLength (a ++ d :: (mid ++ [e])) = stop

section Strings

variable {ds : List Char} {p : Pattern} {line : List Char}

theorem matchAt_delimited (h : delimited? ds = some p) (start stop : Nat) :
    p.MatchAt line start stop ↔ DelimitedAt ds line start stop := by
  constructor
  · rintro ⟨a, b, m, rfl, rfl, best, rfl⟩
    obtain ⟨⟨rest, rfl⟩, d, mid, e, rfl, hd, he, free⟩ := (front?_delimited_iff h).1 best
    exact ⟨a, d, mid, e, rest, by simp, rfl, hd, free, he, byteLength_append ..⟩
  · rintro ⟨a, d, mid, e, rest, rfl, rfl, hd, free, he, rfl⟩
    refine ⟨a, d :: (mid ++ e :: rest), d :: (mid ++ [e]), rfl, rfl, ?_, byteLength_append ..⟩
    exact (front?_delimited_iff h).2 ⟨⟨rest, by simp⟩, d, mid, e, rfl, hd, he, free⟩

end Strings

/-- **The rule of strings** is missing if there are no delimiters. Otherwise a search finds the
first place from its offset on where a delimiter stands and the first delimiter or newline behind it
is a delimiter, and the string ends behind that; so does the rule that is read from the written
pattern of the delimiters, whatever characters they are. -/
theorem delimited_matches (ds : List Char) :
    RuleMatches (delimited? ds) (ds = []) (DelimitedAt ds) ∧
      RuleMatches ((delimitedText? ds).bind read?) (ds = []) (DelimitedAt ds) := by
  have rule : RuleMatches (delimited? ds) (ds = []) (DelimitedAt ds) := by
    refine ⟨by cases ds <;> simp [delimited?], fun p h line => ?_⟩
    refine (findsLeftmost (fun before => ?_) line).congr (matchAt_delimited h)
    rw [Option.eq_none_iff_forall_ne_some]
    intro m best
    obtain ⟨front, d, mid, e, rfl, -⟩ := (front?_delimited_iff h).1 best
    exact absurd (List.prefix_nil.1 front) (List.cons_ne_nil _ _)
  exact ⟨rule, rule.of_rel (read?_delimitedText ds)⟩

end Pattern
end LineTint
