import LineTint.Text.Blank
import LineTint.Text.LetterCase
import Mathlib.Data.List.TakeWhile

/-!
# Trimmed texts

A text is its trimmed text between blanks (`Text.exists_trim`), and blanks around a text make no
difference to what is left of it (`Text.trim_append_blanks`). No blank is a letter, so trimming and
lower case can change places (`Text.trim_lowerAscii`).
-/

namespace LineTint.Text
set_option autoImplicit false

/-- All characters of the text are blanks. -/
def Blanks (cs : List Char) : Prop :=
  ∀ c ∈ cs, isBlank c = true

variable {front back : List Char}

theorem blanks_takeWhile (cs : List Char) : Blanks (cs.takeWhile isBlank) :=
  fun _ mem => List.mem_takeWhile_imp mem

theorem dropBlanks_append (h : Blanks front) (cs : List Char) :
    dropBlanks (front ++ cs) = dropBlanks cs :=
  List.dropWhile_append_of_pos h

theorem dropBlanks_of_blanks (h : Blanks back) : dropBlanks back = [] :=
  List.dropWhile_eq_nil_iff.2 h

theorem trim_append_blanks (hf : Blanks front) (hb : Blanks back) (cs : List Char) :
    trim (front ++ cs ++ back) = trim cs := by
  have reversed : Blanks back.reverse := fun c mem => hb c (List.mem_reverse.1 mem)
  have cut : dropBlanks (cs ++ back) =
      if (dropBlanks cs).isEmpty then dropBlanks back else dropBlanks cs ++ back :=
    List.dropWhile_append
  rw [trim, List.append_assoc, dropBlanks_append hf, cut]
  split
  · rename_i empty
    have none : dropBlanks cs = [] := List.isEmpty_iff.1 empty
    rw [trim, none, dropBlanks_of_blanks hb]
  · rw [List.reverse_append, dropBlanks_append reversed, trim]

theorem exists_trim (cs : List Char) :
    ∃ front back, cs = front ++ trim cs ++ back ∧ Blanks front ∧ Blanks back := by
  refine ⟨cs.takeWhile isBlank, ((dropBlanks cs).reverse.takeWhile isBlank).reverse, ?_,
    blanks_takeWhile cs, fun c mem => blanks_takeWhile _ c (List.mem_reverse.1 mem)⟩
  have behind : trim cs ++ ((dropBlanks cs).reverse.takeWhile isBlank).reverse = dropBlanks cs := by
    rw [trim, ← List.reverse_append]
    exact List.reverse_eq_iff.2 List.takeWhile_append_dropWhile
  rw [List.append_assoc, behind]
  exact List.takeWhile_append_dropWhile.symm

/-! ## Letter case -/

/-- Lower case moves the codes of the ASCII capitals and no others. -/
theorem toNat_toLower (c : Char) :
    c.toLower.toNat = if 65 ≤ c.toNat ∧ c.toNat ≤ 90 then c.toNat + 32 else c.toNat := by
  have bounds : c.val ≥ 'A'.val ∧ c.val ≤ 'Z'.val ↔ 65 ≤ c.toNat ∧ c.toNat ≤ 90 := Iff.rfl
  unfold Char.toLower
  split
  · rename_i capital
    have codes := bounds.1 capital
    rw [if_pos codes]
    show (c.val + 32).toNat = c.val.toNat + 32
    have high : c.val.toNat ≤ 90 := codes.2
    rw [UInt32.toNat_add]
    exact Nat.mod_eq_of_lt (show c.val.toNat + 32 < 4294967296 by omega)
  · rename_i other
    rw [if_neg (mt bounds.2 other)]

theorem isBlank_toLower (c : Char) : isBlank c.toLower = isBlank c := by
  have letters : ∀ n ≤ 90, 65 ≤ n →
      inRanges (n + 32) blankRanges = inRanges n blankRanges := by decide
  rw [isBlank, isBlank, toNat_toLower]
  split
  · rename_i capital
    exact letters c.toNat capital.2 capital.1
  · rfl

theorem dropBlanks_lowerAscii (cs : List Char) :
    dropBlanks (lowerAscii cs) = lowerAscii (dropBlanks cs) := by
  rw [dropBlanks, lowerAscii, List.dropWhile_map, Function.comp_def]
  simp only [isBlank_toLower]
  rfl

theorem trim_lowerAscii (cs : List Char) : trim (lowerAscii cs) = lowerAscii (trim cs) := by
  have reversed (cs : List Char) : (lowerAscii cs).reverse = lowerAscii cs.reverse :=
    List.map_reverse.symm
  rw [trim, dropBlanks_lowerAscii, reversed, dropBlanks_lowerAscii, reversed, trim]

end LineTint.Text
