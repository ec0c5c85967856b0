import LineTint.Proofs.Trimmed
import LineTint.Proofs.WrittenSettings

/-!
# The grammar of colors

A written color is blanks, `#`, six hexadecimal digits and blanks (`Color.IsWritten`). Reading a
color looks at its digits only (`Color.parse_eq_ok_iff`), and these stand behind any number of `#`:
one or none is how colors are to be written, but two or more are read as well. What is no written
color is refused, with the text as it is.
-/

namespace LineTint
set_option autoImplicit false

/-! ## Hexadecimal numbers -/

namespace Text

theorem hexValue?_lt {c : Char} {value : Nat} (h : hexValue? c = some value) : value < 16 := by
  have := hexValue?_cases h
  omega

theorem lt_of_map_hexValue? {cs : List Char} {values : List Nat}
    (h : cs.map hexValue? = values.map some) : ∀ value ∈ values, value < 16 := by
  intro value mem
  have digit : some value ∈ cs.map hexValue? := h ▸ List.mem_map_of_mem mem
  obtain ⟨c, -, digit⟩ := List.mem_map.1 digit
  exact hexValue?_lt digit

/-- Characters spell a number only if each of them is a hexadecimal digit. -/
theorem exists_of_foldlM_hexValue? {cs : List Char} {n m : Nat}
    (h : cs.foldlM (fun n c => (16 * n + ·) <$> hexValue? c) n = some m) :
    ∃ values : List Nat, cs.map hexValue? = values.map some ∧
      values.foldl (fun n value => 16 * n + value) n = m := by
  induction cs generalizing n with
  | nil => exact ⟨[], rfl, Option.some.inj h⟩
  | cons c cs ih =>
    rw [List.foldlM_cons] at h
    cases digit : hexValue? c with
    | none =>
      rw [digit] at h
      cases h
    | some value =>
      rw [digit] at h
      obtain ⟨values, read, spelled⟩ := ih h
      exact ⟨value :: values, by rw [List.map_cons, digit, read, List.map_cons], spelled⟩

end Text

namespace Color

/-- The digits of the color in a number are those that spell the number. -/
theorem digitValues_ofPacked {values : List Nat} (six : values.length = 6)
    (small : ∀ value ∈ values, value < 16) :
    (ofPacked (values.foldl (fun n value => 16 * n + value) 0).toUInt32).digitValues = values := by
  match values, six with
  | [a, b, c, d, e, f], _ =>
    simp only [List.forall_mem_cons] at small
    simp only [List.foldl_cons, List.foldl_nil, ofPacked_toUInt32, digitValues, List.flatMap_cons,
      List.flatMap_nil, List.cons_append, List.nil_append, Nat.toUInt8, UInt8.toNat_ofNat',
      List.cons.injEq, and_true]
    omega

/-- **What reading a color looks at:** the text behind blanks and `#` is the digits of the color. -/
theorem parse_eq_ok_iff {text : String} {c : Color} :
    parse text = .ok c ↔ (digits text.toList).map Text.hexValue? = c.digitValues.map some := by
  refine ⟨fun h => ?_, parse_of_digits⟩
  unfold parse at h
  dsimp only at h
  split at h
  · rename_i n number
    obtain rfl := Except.ok.inj h
    split at number
    · rename_i six
      obtain ⟨values, read, rfl⟩ := Text.exists_of_foldlM_hexValue? number
      have length : values.length = 6 := by
        have same := congrArg List.length read
        rw [List.length_map, List.length_map] at same
        rw [← same, six]
      rw [digitValues_ofPacked length (Text.lt_of_map_hexValue? read), read]
    · cases number
  · cases h

theorem parse_eq_error_iff {text : String} {f : Fault} :
    parse text = .error f ↔ (∀ c, parse text ≠ .ok c) ∧ f = .invalidColor text := by
  unfold parse
  dsimp only
  split
  · simp
  · simp [eq_comm]

/-! ## Written colors -/

/-- The text is the color as it can be written: blanks, so many `#`, the two hexadecimal digits of
each part in either letter case, and blanks. -/
def IsWritten (hashes : Nat) (c : Color) (text : String) : Prop :=
  ∃ front digits back, text.toList = front ++ (List.replicate hashes '#' ++ digits) ++ back ∧
    Text.Blanks front ∧ Text.Blanks back ∧ digits.map Text.hexValue? = c.digitValues.map some

/-- The text is the color as it is to be written: with one `#` or none. -/
def IsDocumented (c : Color) (text : String) : Prop :=
  IsWritten 0 c text ∨ IsWritten 1 c text

/-- Without its blanks a written color is as many `#` and the digits that are read. -/
theorem IsWritten.trim_eq {hashes : Nat} {c : Color} {text : String}
    (h : IsWritten hashes c text) :
    Text.trim text.toList = List.replicate hashes '#' ++ digits text.toList ∧
      (digits text.toList).map Text.hexValue? = c.digitValues.map some := by
  obtain ⟨front, cs, back, e, hf, hb, values⟩ := h
  have trimmed : Text.trim text.toList = List.replicate hashes '#' ++ cs := by
    rw [e, Text.trim_append_blanks hf hb, trim_hashes values]
  have found : digits text.toList = cs := by
    rw [digits, trimmed, ← trim_hashes values]
    exact digits_hashes values hashes
  rw [trimmed, found]
  exact ⟨rfl, values⟩

/-- A text is written with so many `#` and no other number of them. -/
theorem IsWritten.hashes_eq {m n : Nat} {c d : Color} {text : String} (hm : IsWritten m c text)
    (hn : IsWritten n d text) : m = n := by
  have same : List.replicate m '#' ++ digits text.toList =
      List.replicate n '#' ++ digits text.toList := hm.trim_eq.1.symm.trans hn.trim_eq.1
  have length := congrArg List.length same
  simpa using length

/-- A text is read as the colors that it is written as, with whatever number of `#`. -/
theorem parse_eq_ok_iff_isWritten {text : String} {c : Color} :
    parse text = .ok c ↔ ∃ hashes, IsWritten hashes c text := by
  rw [parse_eq_ok_iff]
  constructor
  · intro values
    obtain ⟨front, back, e, hf, hb⟩ := Text.exists_trim text.toList
    let marks := (Text.trim text.toList).takeWhile (· = '#')
    have hashes : marks = List.replicate marks.length '#' := by
      apply List.eq_replicate_of_mem
      intro c mem
      have mark := List.mem_takeWhile_imp mem
      exact of_decide_eq_true mark
    refine ⟨marks.length, front, digits text.toList, back, ?_, hf, hb, values⟩
    rw [← hashes, digits, List.takeWhile_append_dropWhile]
    exact e
  · rintro ⟨hashes, written⟩
    exact written.trim_eq.2

/-- **The colors that are read** are those written with any number of `#`; every other text is
refused as it is. Texts that are no documented color are read if and only if they are one with two
or more `#`. -/
theorem parse_grammar (text : String) :
    (∀ c, parse text = .ok c ↔ ∃ hashes, IsWritten hashes c text) ∧
      (∀ f, parse text = .error f ↔
        (∀ hashes c, ¬IsWritten hashes c text) ∧ f = .invalidColor text) ∧
      ∀ c, (parse text = .ok c ∧ ¬IsDocumented c text) ↔
        ∃ hashes, 2 ≤ hashes ∧ IsWritten hashes c text := by
  refine ⟨fun c => parse_eq_ok_iff_isWritten, fun f => ?_, fun c => ?_⟩
  · rw [parse_eq_error_iff]
    refine and_congr_left fun _ => ?_
    simp only [ne_eq, parse_eq_ok_iff_isWritten, not_exists]
    exact forall_comm
  · rw [parse_eq_ok_iff_isWritten]
    constructor
    · rintro ⟨⟨hashes, written⟩, undocumented⟩
      refine ⟨hashes, ?_, written⟩
      match hashes, written with
      | 0, written => exact absurd (.inl written) undocumented
      | 1, written => exact absurd (.inr written) undocumented
      | n + 2, _ => exact Nat.le_add_left 2 n
    · rintro ⟨hashes, many, written⟩
      refine ⟨⟨hashes, written⟩, ?_⟩
      rintro (none | one)
      · have := none.hashes_eq written
        omega
      · have := one.hashes_eq written
        omega

/-- Two `#` are one too many, but the color is read. -/
theorem parse_twoHashes :
    parse "##ffffff" = .ok ⟨255, 255, 255⟩ ∧ ∀ c, ¬IsDocumented c "##ffffff" := by
  have two : IsWritten 2 ⟨255, 255, 255⟩ "##ffffff" :=
    ⟨[], "ffffff".toList, [], by decide, by simp [Text.Blanks], by simp [Text.Blanks], by decide⟩
  refine ⟨by decide, fun c => ?_⟩
  rintro (none | one)
  · exact absurd (none.hashes_eq two) (by decide)
  · exact absurd (one.hashes_eq two) (by decide)

end Color
end LineTint
