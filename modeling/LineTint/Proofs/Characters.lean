import LineTint.Pattern.CharClass

/-!
# Disjoint sets of characters

The tables of characters are long, but that two of them have no character in common is a check
of their ranges (`inRanges_eq_false`). So blanks are neither word characters nor digits.
-/

namespace LineTint.Text
set_option autoImplicit false

theorem exists_of_inRanges {n : Nat} {rs : List (Nat × Nat)} (h : inRanges n rs = true) :
    ∃ r ∈ rs, r.1 ≤ n ∧ n ≤ r.2 := by
  induction rs with
  | nil => exact absurd h (by simp [inRanges])
  | cons r rs ih =>
    simp only [inRanges] at h
    split at h
    · exact absurd h (by simp)
    · rename_i above
      rcases Bool.or_eq_true_iff.1 h with here | later
      · exact ⟨r, List.mem_cons_self, by omega, by simpa using here⟩
      · obtain ⟨s, hs, bounds⟩ := ih later
        exact ⟨s, List.mem_cons_of_mem r hs, bounds⟩

/-- No range of one table meets a range of the other. -/
def RangesApart (rs ss : List (Nat × Nat)) : Prop :=
  ∀ r ∈ rs, ∀ s ∈ ss, r.2 < s.1 ∨ s.2 < r.1

instance (rs ss : List (Nat × Nat)) : Decidable (RangesApart rs ss) :=
  inferInstanceAs (Decidable (∀ r ∈ rs, ∀ s ∈ ss, r.2 < s.1 ∨ s.2 < r.1))

theorem inRanges_eq_false {n : Nat} {rs ss : List (Nat × Nat)} (apart : RangesApart rs ss)
    (h : inRanges n rs = true) : inRanges n ss = false := by
  rw [← Bool.not_eq_true]
  intro h'
  obtain ⟨r, hr, low, high⟩ := exists_of_inRanges h
  obtain ⟨s, hs, low', high'⟩ := exists_of_inRanges h'
  have := apart r hr s hs
  omega

theorem isWord_of_isBlank {c : Char} (h : isBlank c = true) : isWord c = false := by
  have letters : inRanges c.toNat letterRanges = false :=
    inRanges_eq_false (by decide +kernel) h
  have others : inRanges c.toNat wordRangesBesidesLetters = false :=
    inRanges_eq_false (by decide +kernel) h
  rw [isWord, isLetter, letters, others]
  rfl

end LineTint.Text

namespace LineTint.CharClass
set_option autoImplicit false
open Text

/-- The ASCII digits. -/
def asciiDigit : CharClass := .union .none (.range '0' '9')

theorem inRanges_of_asciiDigit {c : Char} (h : asciiDigit.has c = true) :
    inRanges c.toNat [(0x30, 0x39)] = true := by
  simp only [asciiDigit, CharClass.has, Bool.false_or, Bool.and_eq_true, decide_eq_true_eq] at h
  obtain ⟨low, high⟩ := h
  have low : 0x30 ≤ c.toNat := low
  have high : c.toNat ≤ 0x39 := high
  simp [inRanges, high]
  omega

theorem isBlank_of_asciiDigit {c : Char} (h : asciiDigit.has c = true) : isBlank c = false :=
  inRanges_eq_false (by decide) (inRanges_of_asciiDigit h)

theorem has_asciiDigit (c : Char) : asciiDigit.has c = c.isDigit := by
  simp only [asciiDigit, CharClass.has, Bool.false_or]
  rfl

theorem isWord_of_asciiDigit {c : Char} (h : asciiDigit.has c = true) : isWord c = true := by
  obtain ⟨r, hr, low, high⟩ := exists_of_inRanges (inRanges_of_asciiDigit h)
  obtain rfl := List.mem_singleton.1 hr
  have first : inRanges c.toNat wordRangesBesidesLetters = true := by
    rw [wordRangesBesidesLetters, inRanges, if_neg (by omega), Bool.or_eq_true_iff]
    exact .inl (decide_eq_true high)
  rw [isWord, first, Bool.or_true]

end LineTint.CharClass
