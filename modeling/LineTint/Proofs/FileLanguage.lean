import LineTint.Language
import LineTint.Proofs.FileNames
import LineTint.Proofs.Gutter
import LineTint.Proofs.Trimmed

/-!
# The language of a file

The language of a file hangs on the extension of its name alone (`Language.ofPath?_eq_some_iff`).
Bytes are compared without regard to the case of ASCII letters; since extensions are ASCII, bytes
that are no text stand for no language (`Language.sameLetters_iff`). No two languages share an
extension, so that the order in which languages are tried does not matter.
-/

namespace LineTint
set_option autoImplicit false

/-! ## Letter case of bytes -/

namespace Text

/-- A byte, an ASCII capital in lower case. -/
def lowerByte (b : UInt8) : UInt8 :=
  if 0x41 ≤ b ∧ b ≤ 0x5A then b + 0x20 else b

/-- The bytes are equal but for the case of ASCII letters. -/
def SameLetters (a b : List UInt8) : Prop :=
  a.map lowerByte = b.map lowerByte

instance (a b : List UInt8) : Decidable (SameLetters a b) :=
  inferInstanceAs (Decidable (a.map lowerByte = b.map lowerByte))

theorem lowerByte_of_le {b : UInt8} (h : 128 ≤ b) : lowerByte b = b := by
  refine if_neg fun capital => ?_
  exact absurd (UInt8.le_trans h capital.2) (by decide)

theorem lt_of_lowerByte_lt {b : UInt8} (h : lowerByte b < 128) : b < 128 := by
  rw [← UInt8.not_le] at h ⊢
  intro le
  rw [lowerByte_of_le le] at h
  exact h le

/-- In bytes, lower case is lower case. -/
theorem map_lowerByte_utf8EncodeChar (c : Char) :
    (String.utf8EncodeChar c).map lowerByte = String.utf8EncodeChar c.toLower := by
  by_cases ascii : c.toNat < 128
  · have codes : ∀ n < 128, lowerByte (UInt8.ofNat n) =
        UInt8.ofNat (if 65 ≤ n ∧ n ≤ 90 then n + 32 else n) := by decide
    have small : c.toLower.toNat < 128 := by
      rw [toNat_toLower]
      split <;> omega
    rw [utf8EncodeChar_ascii ascii, utf8EncodeChar_ascii small, toNat_toLower, List.map_singleton,
      codes _ ascii]
  · have same : c.toLower = c := by
      rw [← Char.toNat_inj, toNat_toLower, if_neg (by omega)]
    have kept : ∀ b ∈ String.utf8EncodeChar c, lowerByte b = b :=
      fun b mem => lowerByte_of_le (le_of_mem_utf8EncodeChar (Nat.not_lt.1 ascii) mem)
    rw [same, List.map_congr_left kept, List.map_id']

theorem map_lowerByte_utf8 (text : String) :
    (utf8 text).map lowerByte = utf8 (.ofList (lowerAscii text.toList)) := by
  have bytes : utf8 text = text.toList.flatMap String.utf8EncodeChar := by
    rw [← utf8_ofList, String.ofList_toList]
  rw [bytes, utf8_ofList, lowerAscii, List.map_flatMap, List.flatMap_map]
  simp only [map_lowerByte_utf8EncodeChar]

/-- Bytes below 128 are a text. -/
theorem exists_utf8_eq {bytes : List UInt8} (h : ∀ b ∈ bytes, b < 128) :
    ∃ text, utf8 text = bytes := by
  refine ⟨.ofList (bytes.map fun b => Char.ofNat b.toNat), ?_⟩
  have codes : ∀ n < 128, (Char.ofNat n).toNat = n := by decide
  rw [utf8_ofList, List.flatMap_map]
  induction bytes with
  | nil => rfl
  | cons b bytes ih =>
    obtain ⟨first, others⟩ := List.forall_mem_cons.1 h
    have code : (Char.ofNat b.toNat).toNat = b.toNat := codes _ (UInt8.lt_iff_toNat_lt.1 first)
    rw [List.flatMap_cons, ih others, utf8EncodeChar_ascii (by rw [code]; exact first), code,
      UInt8.ofNat_toNat]
    rfl

theorem utf8_inj {s t : String} (h : utf8 s = utf8 t) : s = t := by
  have decoded := Terminal.decode?_utf8 s
  rw [h, Terminal.decode?_utf8] at decoded
  exact (Option.some.inj decoded).symm

end Text

/-! ## Extensions -/

/-- Where at most one element passes, a search finds it wherever it stands. -/
theorem find?_eq_some_iff_of_unique {α : Type} {p : α → Bool} {as : List α} {a : α}
    (unique : ∀ b c, p b = true → p c = true → b = c) :
    as.find? p = some a ↔ a ∈ as ∧ p a = true := by
  constructor
  · intro h
    exact ⟨List.mem_of_find?_eq_some h, List.find?_some h⟩
  · rintro ⟨mem, passes⟩
    obtain ⟨b, found⟩ := Option.isSome_iff_exists.1 (List.find?_isSome.2 ⟨a, mem, passes⟩)
    rw [found, unique b a (List.find?_some found) passes]

namespace Language
open FileName (IsNameOf dot)

theorem mem_all (l : Language) : l ∈ all := by
  cases l <;> decide

/-- Extensions are ASCII and in lower case. -/
theorem extension_plain (l : Language) :
    ∀ e ∈ l.extensions, Text.lowerAscii e.toList = e.toList ∧ ∀ b ∈ Text.utf8 e, b < 128 := by
  cases l <;> decide +kernel

/-- No extension stands for two languages. -/
theorem eq_of_mem_extensions {l m : Language} {e : String} (hl : e ∈ l.extensions)
    (hm : e ∈ m.extensions) : l = m := by
  have apart : ∀ l ∈ all, ∀ m ∈ all, ∀ e ∈ l.extensions, e ∈ m.extensions → l = m := by
    decide +kernel
  exact apart l l.mem_all m m.mem_all e hl hm

theorem sameLetters_iff {l : Language} {e : String} (mem : e ∈ l.extensions) {ext : List UInt8} :
    Text.SameLetters ext (Text.utf8 e) ↔
      ∃ text, Text.utf8 text = ext ∧ e.toList = Text.lowerAscii text.toList := by
  obtain ⟨lower, ascii⟩ := l.extension_plain e mem
  have fixed : (Text.utf8 e).map Text.lowerByte = Text.utf8 e := by
    rw [Text.map_lowerByte_utf8, lower, String.ofList_toList]
  rw [Text.SameLetters, fixed]
  constructor
  · intro same
    have small : ∀ b ∈ ext, b < 128 := by
      intro b hb
      apply Text.lt_of_lowerByte_lt
      apply ascii
      rw [← same]
      exact List.mem_map_of_mem hb
    obtain ⟨text, rfl⟩ := Text.exists_utf8_eq small
    refine ⟨text, rfl, ?_⟩
    rw [Text.map_lowerByte_utf8] at same
    rw [← Text.utf8_inj same, String.toList_ofList]
  · rintro ⟨text, rfl, named⟩
    rw [Text.map_lowerByte_utf8, ← named, String.ofList_toList]

/-- The file name of the path is a stem, a dot and an extension of the language in any letter
case; that dot is its last one. -/
def HasExtension (l : Language) (path : List UInt8) : Prop :=
  ∃ stem ext, IsNameOf (stem ++ dot :: ext) path ∧ stem ≠ [] ∧ dot ∉ ext ∧
    ∃ e ∈ l.extensions, Text.SameLetters ext (Text.utf8 e)

/-- The first of some languages that stands for the extension of a path. -/
def searchPath? (languages : List Language) (path : List UInt8) : Option Language := do
  let extension ← FileName.extension? path
  let text ← Text.decode? extension
  languages.find? fun l => l.extensions.any fun e => e.toList = Text.lowerAscii text.toList

theorem eq_of_spelled {text : List Char} {l m : Language}
    (hl : (l.extensions.any fun e => e.toList = text) = true)
    (hm : (m.extensions.any fun e => e.toList = text) = true) : l = m := by
  obtain ⟨e, hl, spelled⟩ := List.any_eq_true.1 hl
  obtain ⟨f, hm, same⟩ := List.any_eq_true.1 hm
  have eq : e = f :=
    String.toList_inj.1 ((of_decide_eq_true spelled).trans (of_decide_eq_true same).symm)
  exact eq_of_mem_extensions hl (eq ▸ hm)

/-- A search through all languages finds the one that has the extension, in whatever order. -/
theorem searchPath?_eq_some_iff {languages : List Language} (every : ∀ l, l ∈ languages)
    {path : List UInt8} {l : Language} :
    searchPath? languages path = some l ↔ HasExtension l path := by
  unfold searchPath?
  simp only [Option.bind_eq_bind, Option.bind_eq_some_iff, FileName.extension?_eq_some_iff,
    Text.decode?_eq_some_iff, find?_eq_some_iff_of_unique fun l m => eq_of_spelled,
    List.any_eq_true, decide_eq_true_eq]
  constructor
  · rintro ⟨ext, ⟨stem, stem_ne, noDot, named⟩, text, decoded, -, e, mem, spelled⟩
    exact ⟨stem, ext, named, stem_ne, noDot, e, mem,
      (sameLetters_iff mem).2 ⟨text, decoded, spelled⟩⟩
  · rintro ⟨stem, ext, named, stem_ne, noDot, e, mem, same⟩
    obtain ⟨text, decoded, spelled⟩ := (sameLetters_iff mem).1 same
    exact ⟨ext, ⟨stem, stem_ne, noDot, named⟩, text, decoded, every l, e, mem, spelled⟩

theorem ofPath?_eq_some_iff {path : List UInt8} {l : Language} :
    ofPath? path = some l ↔ HasExtension l path :=
  searchPath?_eq_some_iff mem_all

/-- Only the extension of a path has a part in its language. -/
theorem ofPath?_congr {path other : List UInt8}
    (same : FileName.extension? other = FileName.extension? path) :
    ofPath? other = ofPath? path := by
  rw [ofPath?, same, ofPath?]

/-- A file whose name has its only dot in front has no extension. -/
theorem ofPath?_eq_none_of_front {path rest : List UInt8} (noDot : dot ∉ rest)
    (named : IsNameOf (dot :: rest) path) : ofPath? path = none := by
  rw [Option.eq_none_iff_forall_ne_some]
  intro l found
  obtain ⟨stem, ext, named', stem_ne, -⟩ := ofPath?_eq_some_iff.1 found
  obtain ⟨b, stem, rfl⟩ := List.exists_cons_of_ne_nil stem_ne
  have same := named.unique named'
  rw [List.cons_append, List.cons.injEq] at same
  apply noDot
  rw [same.2]
  simp

/-- **The language of a file** is the one with the extension of its name, whatever stands before
that extension. No path has the extensions of two languages, and languages may be searched in any
order. A name with its only dot in front has no extension. -/
theorem path_lastExtension (path : List UInt8) :
    (∀ l, ofPath? path = some l ↔ HasExtension l path) ∧
      (∀ l m, HasExtension l path → HasExtension m path → l = m) ∧
      (∀ languages, (∀ l, l ∈ languages) → searchPath? languages path = ofPath? path) ∧
      (∀ other name, IsNameOf name path → IsNameOf name other → ofPath? other = ofPath? path) ∧
      (∀ other stem stem' ext, stem ≠ [] → stem' ≠ [] → dot ∉ ext →
        IsNameOf (stem ++ dot :: ext) path → IsNameOf (stem' ++ dot :: ext) other →
        ofPath? other = ofPath? path) ∧
      (∀ rest, dot ∉ rest → IsNameOf (dot :: rest) path → ofPath? path = none) ∧
      ofPath? (Text.utf8 ".kt") = none ∧ ofPath? (Text.utf8 "..kt") = some .kotlin := by
  refine ⟨fun l => ofPath?_eq_some_iff, fun l m hl hm => ?_, fun languages every => ?_,
    fun other name named named' => ofPath?_congr ?_,
    fun other stem stem' ext stem_ne stem_ne' noDot named named' => ofPath?_congr ?_,
    fun rest noDot named => ofPath?_eq_none_of_front noDot named, ?_, ?_⟩
  · have same := (ofPath?_eq_some_iff.2 hl).symm.trans (ofPath?_eq_some_iff.2 hm)
    exact Option.some.inj same
  · refine Option.ext fun l => ?_
    rw [searchPath?_eq_some_iff every, ofPath?_eq_some_iff]
  · rw [FileName.extension?, named'.base?, FileName.extension?, named.base?]
  · rw [FileName.extension?_eq_some_iff.2 ⟨stem, stem_ne, noDot, named⟩,
      FileName.extension?_eq_some_iff.2 ⟨stem', stem_ne', noDot, named'⟩]
  · decide
  · decide

/-- Neither a directory nor a stem has to be text. -/
theorem path_lastExtension_undecodable :
    let path : List UInt8 := [0xFF, 0x2F, 0xC3, 0x2E, 0x4B, 0x74, 0x2F, 0x2E]
    IsNameOf [0xC3, 0x2E, 0x4B, 0x74] path ∧ Text.decode? path = none ∧
      ofPath? path = some .kotlin := by
  intro path
  have named : IsNameOf [0xC3, 0x2E, 0x4B, 0x74] path :=
    ⟨⟨[0xFF, 0x2F], [0x2F, 0x2E], rfl, .inr ⟨[0xFF], rfl⟩, .here .nil⟩, by decide, by decide,
      by decide, by decide⟩
  have kotlin : HasExtension .kotlin path :=
    ⟨[0xC3], [0x4B, 0x74], named, by decide, by decide, "kt", by decide, by decide⟩
  exact ⟨named, by decide, ((path_lastExtension path).1 .kotlin).2 kotlin⟩

end Language
end LineTint
