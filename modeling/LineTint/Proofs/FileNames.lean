import LineTint.FileName
import LineTint.Proofs.LineByLine
import Mathlib.Data.List.TakeWhile

/-!
# File names

A path is a directory, a file name and perhaps slashes and single dots (`FileName.IsNameOf`,
`FileName.base?_eq_some_iff`), and a file name with an extension is a stem, its last dot and the
extension (`FileName.extension?_eq_some_iff`). The components of a path are its pieces between
slashes; what stands behind the name is made of components that do not count
(`FileName.exists_idle_of_trailing`, `FileName.trailing_flatMap`).
-/

namespace LineTint
set_option autoImplicit false

namespace FileName

/-- What may follow a file name: slashes, each perhaps with a single dot behind it. -/
inductive Trailing : List UInt8 → Prop where
  | nil : Trailing []
  | slash {rest : List UInt8} (h : Trailing rest) : Trailing (slash :: rest)
  | here {rest : List UInt8} (h : Trailing rest) : Trailing (slash :: dot :: rest)

/-- The name is the file name of the path: its last component, where slashes and single dots at the
end do not count, unless that is the parent directory. -/
structure IsNameOf (name path : List UInt8) : Prop where
  place : ∃ directory tail, path = directory ++ name ++ tail ∧
    (directory = [] ∨ ∃ front, directory = front ++ [slash]) ∧ Trailing tail
  noSlash : slash ∉ name
  ne_nil : name ≠ []
  ne_here : name ≠ [dot]
  ne_parent : name ≠ [dot, dot]

variable {path name tail ext : List UInt8}

theorem components_of_noSlash (h : slash ∉ name) : components name = [name] :=
  List.splitOn_eq_singleton h

theorem components_append_slash (a b : List UInt8) :
    components (a ++ slash :: b) = components a ++ components b :=
  List.splitOn_append_cons_self a b

/-- A component that does not count at the end of a path. -/
def Idle (piece : List UInt8) : Prop :=
  piece = [] ∨ piece = [dot]

/-- The slashes behind a name make components that do not count. -/
theorem exists_idle_of_trailing (h : Trailing tail) (name : List UInt8) :
    ∃ pieces, components (name ++ tail) = components name ++ pieces ∧ ∀ p ∈ pieces, Idle p := by
  -- for every name, since to what follows a single dot that dot is the name
  induction h generalizing name with
  | nil => exact ⟨[], by simp, by simp⟩
  | slash _ ih =>
    obtain ⟨pieces, e, idle⟩ := ih []
    refine ⟨[] :: pieces, ?_, List.forall_mem_cons.2 ⟨.inl rfl, idle⟩⟩
    rw [components_append_slash]
    exact congrArg _ e
  | here _ ih =>
    obtain ⟨pieces, e, idle⟩ := ih [dot]
    refine ⟨[dot] :: pieces, ?_, List.forall_mem_cons.2 ⟨.inr rfl, idle⟩⟩
    rw [components_append_slash]
    exact congrArg _ e

theorem trailing_flatMap {pieces : List (List UInt8)} (idle : ∀ p ∈ pieces, Idle p) :
    Trailing (pieces.flatMap ([slash] ++ ·)) := by
  induction pieces with
  | nil => exact .nil
  | cons piece pieces ih =>
    obtain ⟨first, others⟩ := List.forall_mem_cons.1 idle
    rw [List.flatMap_cons]
    rcases first with rfl | rfl
    · exact .slash (ih others)
    · exact .here (ih others)

/-- What stands before and behind a component of a path. -/
theorem exists_place {front after : List (List UInt8)}
    (h : components path = front ++ name :: after) :
    ∃ directory, path = directory ++ name ++ after.flatMap ([slash] ++ ·) ∧
      (directory = [] ∨ ∃ front, directory = front ++ [slash]) := by
  have whole : [slash].intercalate (front ++ name :: after) = path := by
    rw [← h, components, List.intercalate_splitOn]
  cases front with
  | nil =>
    refine ⟨[], ?_, .inl rfl⟩
    rw [← whole, List.nil_append, intercalate_cons, List.nil_append]
  | cons first others =>
    refine ⟨[slash].intercalate (first :: others) ++ [slash], ?_, .inr ⟨_, rfl⟩⟩
    rw [← whole, intercalate_append (List.cons_ne_nil _ _) (List.cons_ne_nil _ _),
      intercalate_cons [slash] name, ← List.append_assoc]

theorem isNameOf_of_base? (h : base? path = some name) : IsNameOf name path := by
  unfold base? at h
  split at h
  · cases h
  · rename_i piece found
    split at h
    · cases h
    · rename_i notParent
      obtain rfl := Option.some.inj h
      -- the search begins at the end, so it has passed over what stands behind the name
      obtain ⟨passes, behind, front, e, idle⟩ := List.find?_eq_some_iff_append.1 found
      obtain ⟨ne_nil, ne_here⟩ := of_decide_eq_true passes
      have pieces : components path = front.reverse ++ piece :: behind.reverse := by
        rw [← List.reverse_reverse (components path), e]
        simp
      obtain ⟨directory, whole, ends⟩ := exists_place pieces
      have tail : Trailing (behind.reverse.flatMap ([slash] ++ ·)) := by
        apply trailing_flatMap
        intro p mem
        have skipped := idle p (List.mem_reverse.1 mem)
        simpa [Idle, Decidable.imp_iff_not_or] using skipped
      have mem : piece ∈ components path := by
        rw [pieces]
        simp
      exact ⟨⟨directory, _, whole, ends, tail⟩, Text.notMem_of_mem_splitOn mem, ne_nil, ne_here,
        notParent⟩

theorem IsNameOf.base? (h : IsNameOf name path) : base? path = some name := by
  obtain ⟨⟨directory, tail, rfl, ends, trailing⟩, noSlash, ne_nil, ne_here, ne_parent⟩ := h
  obtain ⟨behind, e, idle⟩ := exists_idle_of_trailing trailing name
  rw [components_of_noSlash noSlash] at e
  have pieces : ∃ front, components (directory ++ name ++ tail) = front ++ name :: behind := by
    rcases ends with rfl | ⟨front, rfl⟩
    · exact ⟨[], e⟩
    · refine ⟨components front, ?_⟩
      rw [List.append_assoc, List.append_assoc, List.singleton_append, components_append_slash, e]
      rfl
  obtain ⟨front, pieces⟩ := pieces
  have found : (components (directory ++ name ++ tail)).reverse.find?
      (fun piece => piece ≠ [] ∧ piece ≠ [dot]) = some name := by
    rw [List.find?_eq_some_iff_append, pieces]
    refine ⟨decide_eq_true ⟨ne_nil, ne_here⟩, behind.reverse, front.reverse, by simp, ?_⟩
    intro p mem
    have := idle p (List.mem_reverse.1 mem)
    simpa [Idle, Decidable.imp_iff_not_or] using this
  rw [FileName.base?, found]
  exact if_neg ne_parent

theorem base?_eq_some_iff : FileName.base? path = some name ↔ IsNameOf name path :=
  ⟨isNameOf_of_base?, IsNameOf.base?⟩

theorem IsNameOf.unique {other : List UInt8} (h : IsNameOf name path) (h' : IsNameOf other path) :
    name = other :=
  Option.some.inj (h.base?.symm.trans h'.base?)

/-- The extension of a file name is what follows its last dot, behind a stem. -/
theorem afterLastDot?_eq_some_iff :
    afterLastDot? name = some ext ↔ ∃ stem, stem ≠ [] ∧ dot ∉ ext ∧ name = stem ++ dot :: ext := by
  have cut : name.reverse.takeWhile (· ≠ dot) ++ name.reverse.dropWhile (· ≠ dot) = name.reverse :=
    List.takeWhile_append_dropWhile
  constructor
  · intro h
    unfold afterLastDot? at h
    dsimp only at h
    split at h
    · rename_i d c rest behind
      obtain rfl := Option.some.inj h
      have last : d = dot := by
        have stops := List.head?_dropWhile_not (· ≠ dot) name.reverse
        rw [behind] at stops
        simpa using stops
      refine ⟨(c :: rest).reverse, by simp, ?_, ?_⟩
      · intro mem
        have passes := List.mem_takeWhile_imp (List.mem_reverse.1 mem)
        simp at passes
      · rw [behind, last] at cut
        have whole := congrArg List.reverse cut
        simpa using whole.symm
    · cases h
  · rintro ⟨stem, stem_ne, noDot, rfl⟩
    have reversed : (stem ++ dot :: ext).reverse = ext.reverse ++ dot :: stem.reverse := by simp
    have others : ∀ b ∈ ext.reverse, decide (b ≠ dot) = true := by
      intro b mem
      refine decide_eq_true ?_
      rintro rfl
      exact noDot (List.mem_reverse.1 mem)
    obtain ⟨c, rest, e⟩ := List.exists_cons_of_ne_nil (mt List.reverse_eq_nil_iff.1 stem_ne)
    have taken : (stem ++ dot :: ext).reverse.takeWhile (· ≠ dot) = ext.reverse := by
      rw [reversed, List.takeWhile_append_of_pos others, List.takeWhile_cons_of_neg (by simp),
        List.append_nil]
    have left : (stem ++ dot :: ext).reverse.dropWhile (· ≠ dot) = dot :: c :: rest := by
      rw [reversed, List.dropWhile_append_of_pos others, List.dropWhile_cons_of_neg (by simp), e]
    rw [afterLastDot?, left, taken, List.reverse_reverse]

theorem extension?_eq_some_iff :
    extension? path = some ext ↔
      ∃ stem, stem ≠ [] ∧ dot ∉ ext ∧ IsNameOf (stem ++ dot :: ext) path := by
  rw [extension?, Option.bind_eq_some_iff]
  simp only [base?_eq_some_iff, afterLastDot?_eq_some_iff]
  constructor
  · rintro ⟨name, named, stem, stem_ne, noDot, rfl⟩
    exact ⟨stem, stem_ne, noDot, named⟩
  · rintro ⟨stem, stem_ne, noDot, named⟩
    exact ⟨_, named, stem, stem_ne, noDot, rfl⟩

end FileName

end LineTint
