import LineTint.Text.Bytes

/-!
# Places in a line

A place cuts a line in two: the characters before it and those after it. Its byte offset is
the length of the first part, and matching also looks at the last character of that part,
which `lastOf` gives.
-/

namespace LineTint.Text
set_option autoImplicit false

/-- The character before the place behind `a`, where `a` stands after `before`. -/
def lastOf (before : Option Char) : List Char → Option Char
  | [] => before
  | c :: cs => lastOf (some c) cs

@[simp] theorem lastOf_nil (before : Option Char) : lastOf before [] = before := rfl

@[simp] theorem lastOf_cons (before : Option Char) (c : Char) (cs : List Char) :
    lastOf before (c :: cs) = lastOf (some c) cs := rfl

@[simp] theorem lastOf_append (before : Option Char) (a b : List Char) :
    lastOf before (a ++ b) = lastOf (lastOf before a) b := by
  induction a generalizing before with
  | nil => rfl
  | cons c cs ih => exact ih (some c)

theorem lastOf_eq (before : Option Char) (a : List Char) :
    lastOf before a = a.getLast?.or before := by
  induction a generalizing before with
  | nil => rfl
  | cons c cs ih =>
    rw [lastOf_cons, ih, List.getLast?_cons]
    cases cs.getLast? <;> rfl

theorem lastOf_none (a : List Char) : lastOf none a = a.getLast? := by
  rw [lastOf_eq, Option.or_none]

theorem byteLength_pos {a : List Char} (h : a ≠ []) : 0 < byteLength a := by
  cases a with
  | nil => exact absurd rfl h
  | cons c cs =>
    have := c.utf8Size_pos
    simp only [byteLength_cons]
    omega

theorem byteLength_eq_zero {a : List Char} : byteLength a = 0 ↔ a = [] := by
  constructor
  · intro h
    by_cases ha : a = []
    · exact ha
    · have := byteLength_pos ha
      omega
  · rintro rfl
    rfl

theorem byteLength_toList (s : String) : byteLength s.toList = s.utf8ByteSize := by
  induction s using String.push_induction with
  | empty => rfl
  | push s c ih =>
    rw [String.toList_push, byteLength_append, ih, String.utf8ByteSize_push]
    simp only [byteLength_cons, byteLength_nil, Nat.add_zero]

theorem utf8ByteSize_ofList (cs : List Char) : (String.ofList cs).utf8ByteSize = byteLength cs := by
  rw [← byteLength_toList, String.toList_ofList]

/-- Of two fronts of a line the shorter is a front of the longer. -/
theorem prefix_of_byteLength_le {a b line : List Char} (ha : a <+: line) (hb : b <+: line)
    (h : byteLength a ≤ byteLength b) : a <+: b := by
  rcases List.prefix_or_prefix_of_prefix ha hb with hab | ⟨c, rfl⟩
  · exact hab
  · have : byteLength c = 0 := by
      rw [byteLength_append] at h
      omega
    simp [byteLength_eq_zero.1 this]

end LineTint.Text
