import LineTint.Text.Blank
import LineTint.Text.Digit
import LineTint.Text.LetterCase
import LineTint.Text.Word

/-!
# Character classes

A class is an expression over ranges and the Unicode classes, so two classes
can be compared and every set operation is a constructor. `CharClass.has` says
which characters are in a class; `ignoringCase` widens its ranges to all case
variants of their members, and `ascii?` is what a written class means where
Unicode is turned off.
-/

namespace LineTint
set_option autoImplicit false

/-- A set of characters, written as an expression. -/
inductive CharClass where
  /-- The empty set. -/
  | none
  /-- The characters from `first` to `last`. -/
  | range (first last : Char)
  /-- The characters that differ in case only from one between `first` and `last`. -/
  | rangeAnyCase (first last : Char)
  /-- The decimal digits. -/
  | digit
  /-- The word characters. -/
  | word
  /-- The blanks. -/
  | blank
  | union (a b : CharClass)
  | inter (a b : CharClass)
  /-- The members of the first that are not in the second. -/
  | diff (a b : CharClass)
  | compl (a : CharClass)
  deriving DecidableEq, Repr

namespace CharClass

/-- The class of one character. -/
def single (c : Char) : CharClass := .range c c

/-- All characters. -/
def all : CharClass := .compl .none

/-- The members of a list. -/
def ofList (cs : List Char) : CharClass :=
  cs.foldr (fun c rest => .union (single c) rest) .none

/-- The members of exactly one of two classes. -/
def symmDiff (a b : CharClass) : CharClass := .union (diff a b) (diff b a)

/-- The class contains the character. -/
def has : CharClass → Char → Bool
  | .none, _ => false
  | .range first last, c => decide (first ≤ c) && decide (c ≤ last)
  | .rangeAnyCase first last, c =>
    (Text.caseVariants c).any fun d => decide (first ≤ d) && decide (d ≤ last)
  | .digit, c => Text.isDigit c
  | .word, c => Text.isWord c
  | .blank, c => Text.isBlank c
  | .union a b, c => a.has c || b.has c
  | .inter a b, c => a.has c && b.has c
  | .diff a b, c => a.has c && !b.has c
  | .compl a, c => !a.has c

/-- The class with every range widened to all cases. The Unicode classes are
closed under case already. -/
def ignoringCase : CharClass → CharClass
  | .range first last => .rangeAnyCase first last
  | .union a b => .union a.ignoringCase b.ignoringCase
  | .inter a b => .inter a.ignoringCase b.ignoringCase
  | .diff a b => .diff a.ignoringCase b.ignoringCase
  | .compl a => .compl a.ignoringCase
  | a => a

/-- The characters of ASCII. -/
def ascii : CharClass := .range '\x00' '\x7f'

/-- The word characters of ASCII. -/
def asciiWord : CharClass :=
  .union (.range '0' '9') (.union (.range 'A' 'Z') (.union (single '_') (.range 'a' 'z')))

/-- The class where Unicode is turned off: the Unicode classes are those of
ASCII. No character outside of ASCII may be in it, so it may not be a
complement. -/
def ascii? : CharClass → Option CharClass
  | .none => some .none
  | .range first last => if last.toNat < 128 then some (.range first last) else Option.none
  | .rangeAnyCase first last =>
    if last.toNat < 128 then some (.inter ascii (.rangeAnyCase first last)) else Option.none
  | .digit => some (.range '0' '9')
  | .word => some asciiWord
  | .blank => some (.union (.range '\t' '\r') (single ' '))
  | .union a b => do return .union (← a.ascii?) (← b.ascii?)
  | .inter a b => do return .inter (← a.ascii?) (← b.ascii?)
  | .diff a b => do return .diff (← a.ascii?) (← b.ascii?)
  | .compl _ => Option.none

theorem has_ofList (cs : List Char) (c : Char) : (ofList cs).has c = decide (c ∈ cs) := by
  induction cs with
  | nil => rfl
  | cons d rest ih =>
    have single_eq : (single d).has c = decide (c = d) := by
      simp only [single, has, ← Bool.decide_and]
      exact decide_eq_decide.2 ⟨fun h => Char.le_antisymm h.2 h.1, fun h => h ▸ ⟨Char.le_refl _, Char.le_refl _⟩⟩
    simp only [ofList, List.foldr_cons, has]
    rw [single_eq]
    simp only [ofList] at ih
    rw [ih]
    simp

end CharClass
end LineTint
