import LineTint.Pattern.Basic
import LineTint.Text.Sorted

/-!
# Whole words

The pattern of the words of a list: a listed word between two word boundaries,
better a longer one than a shorter one. The order of the list and repetitions
in it make no difference.
-/

namespace LineTint.Pattern
set_option autoImplicit false

/-- The order in which listed words are tried: by length in bytes, the longest
first, and words of one length by their code points. -/
def tryBefore (v w : String) : Bool :=
  decide (w.utf8ByteSize < v.utf8ByteSize) ||
    (decide (v.utf8ByteSize = w.utf8ByteSize) && decide (v ≤ w))

/-- The words to try, in order, each once. -/
def candidates (words : List String) : List String :=
  ((words.filter (· ≠ "")).mergeSort tryBefore).eraseDups

/-- One of the listed words, whole; `none` if every listed word is empty. -/
def wholeWord? (words : List String) : Option Pattern :=
  match candidates words with
  | [] => none
  | w :: ws =>
    some (.seq (.anchor .boundary)
      (.seq (anyOf ((w :: ws).map fun v => literal v.toList)) (.anchor .boundary)))

theorem wholeWord?_nil : wholeWord? [] = none := by
  rw [wholeWord?, candidates, List.filter_nil, List.mergeSort_nil]
  rfl

theorem wholeWord?_singleton {w : String} (ne : w ≠ "") : wholeWord? [w] =
    some (.seq (.anchor .boundary) (.seq (anyOf [literal w.toList]) (.anchor .boundary))) := by
  have one : candidates [w] = [w] := by
    rw [candidates, List.filter_cons_of_pos (by simpa using ne), List.filter_nil]
    exact congrArg List.eraseDups (List.mergeSort_singleton w)
  rw [wholeWord?, one]
  rfl

end LineTint.Pattern
