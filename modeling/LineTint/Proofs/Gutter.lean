import LineTint.Proofs.Verbatim
import Mathlib.Data.String.Defs

/-!
# Lines behind a gutter

Without colors a line is written as its number, if lines are numbered, and its text. The number
stands right-aligned in a gutter whose width is computed once, from the number of lines; no number
needs more digits than that one (`length_toDigits_mono`), so the gutters of a text are all of that
width (`Terminal.length_label`). All of it is said of bytes. A byte is a newline only where the text
has one (`Text.newlineByte_mem_utf8`), and no run has one in it, so cutting the output at its
newlines gives back the lines, each behind its gutter.
-/

namespace LineTint
set_option autoImplicit false
open Text

/-! ## Newlines among bytes -/

namespace Text

/-- The byte of a newline. -/
def newlineByte : UInt8 := 10

theorem utf8_ofList (cs : List Char) : utf8 (.ofList cs) = cs.flatMap String.utf8EncodeChar := by
  rw [utf8, String.toUTF8_eq_toByteArray, String.toByteArray_ofList, List.utf8Encode,
    List.data_toByteArray]

theorem byteLength_eq_length {cs : List Char} (narrow : ∀ c ∈ cs, c.utf8Size = 1) :
    byteLength cs = cs.length := by
  induction cs with
  | nil => rfl
  | cons c cs ih =>
    obtain ⟨one, later⟩ := List.forall_mem_cons.1 narrow
    rw [byteLength_cons, one, ih later, List.length_cons, Nat.add_comm]

theorem length_utf8 (s : String) : (utf8 s).length = s.utf8ByteSize := rfl

/-- An ASCII character is one byte. -/
theorem utf8EncodeChar_ascii {c : Char} (h : c.toNat < 128) :
    String.utf8EncodeChar c = [UInt8.ofNat c.toNat] := by
  rw [String.utf8EncodeChar]
  exact if_pos (Nat.le_of_lt_succ h)

/-- Other characters have no byte below 128. -/
theorem le_of_mem_utf8EncodeChar {c : Char} (h : 128 ≤ c.toNat) {b : UInt8}
    (mem : b ∈ String.utf8EncodeChar c) : 128 ≤ b := by
  have large : ∀ n, 128 ≤ n % 256 → 128 ≤ UInt8.ofNat n := by
    intro n le
    rw [UInt8.le_iff_toNat_le, UInt8.toNat_ofNat']
    exact le
  rw [String.utf8EncodeChar] at mem
  split at mem
  · rename_i low
    exact absurd h (Nat.not_le.2 (Nat.lt_succ_of_le low))
  · split at mem
    · simp only [List.mem_cons, List.not_mem_nil, or_false] at mem
      rcases mem with rfl | rfl <;> exact large _ (by omega)
    · split at mem
      · simp only [List.mem_cons, List.not_mem_nil, or_false] at mem
        rcases mem with rfl | rfl | rfl <;> exact large _ (by omega)
      · simp only [List.mem_cons, List.not_mem_nil, or_false] at mem
        rcases mem with rfl | rfl | rfl | rfl <;> exact large _ (by omega)

theorem newlineByte_mem_utf8EncodeChar {c : Char} :
    newlineByte ∈ String.utf8EncodeChar c ↔ c = '\n' := by
  constructor
  · intro h
    by_cases ascii : c.toNat < 128
    · rw [utf8EncodeChar_ascii ascii, List.mem_singleton, ← UInt8.toNat_inj,
        UInt8.toNat_ofNat'] at h
      have code : 10 = c.toNat % 256 := h
      have newline : c.toNat = '\n'.toNat := by
        show c.toNat = 10
        omega
      exact Char.toNat_inj.1 newline
    · exact absurd (le_of_mem_utf8EncodeChar (Nat.not_lt.1 ascii) h) (by decide)
  · rintro rfl
    decide

theorem newlineByte_mem_utf8 {s : String} : newlineByte ∈ utf8 s ↔ '\n' ∈ s.toList := by
  obtain ⟨cs, rfl⟩ : ∃ cs, s = .ofList cs := ⟨s.toList, String.ofList_toList.symm⟩
  rw [utf8_ofList, String.toList_ofList, List.mem_flatMap]
  simp only [newlineByte_mem_utf8EncodeChar, exists_eq_right]

theorem newlineByte_notMem_line {cs line : List Char} (h : line ∈ cs.splitOn '\n') :
    newlineByte ∉ utf8 (.ofList line) := by
  rw [newlineByte_mem_utf8, String.toList_ofList]
  exact notMem_of_mem_splitOn h

/-- Cutting the bytes of a text at the newlines gives the bytes of its lines. -/
theorem splitOn_utf8 (s : String) :
    (utf8 s).splitOn newlineByte = (s.toList.splitOn '\n').map fun line => utf8 (.ofList line) := by
  have newline : ['\n'].flatMap String.utf8EncodeChar = [newlineByte] := by decide
  have bytes : utf8 s =
      [newlineByte].intercalate ((s.toList.splitOn '\n').map fun line => utf8 (.ofList line)) := by
    simp only [utf8_ofList]
    rw [← newline, ← flatMap_intercalate, List.intercalate_splitOn, ← utf8_ofList,
      String.ofList_toList]
  rw [bytes]
  apply List.splitOn_intercalate
  · intro t ht
    obtain ⟨line, hline, rfl⟩ := List.mem_map.1 ht
    exact newlineByte_notMem_line hline
  · rw [Ne, List.map_eq_nil_iff]
    exact List.splitOn_ne_nil _ _

theorem newlineByte_notMem_of_mem_splitOn {s : String} {line : List UInt8}
    (h : line ∈ (utf8 s).splitOn newlineByte) : newlineByte ∉ line :=
  notMem_of_mem_splitOn h

end Text

/-! ## The gutter -/

/-- A smaller number has no more digits. -/
theorem length_toDigits_mono {k n : Nat} (h : k ≤ n) :
    (Nat.toDigits 10 k).length ≤ (Nat.toDigits 10 n).length := by
  have some : 0 < (Nat.toDigits 10 n).length := Nat.length_toDigits_pos
  have bound : n < 10 ^ (Nat.toDigits 10 n).length :=
    (Nat.length_toDigits_le_iff (by decide) some).1 (Nat.le_refl _)
  apply (Nat.length_toDigits_le_iff (by decide) some).2
  omega

namespace Terminal

variable {theme : Theme}

theorem toList_leftpad (width : Nat) (c : Char) (s : String) :
    (String.leftpad width c s).toList = List.leftpad width c s.toList :=
  String.toList_ofList

/-- A line number is written in decimal at the right end of its columns, with a blank behind it. -/
theorem label_eq (width number : Nat) :
    label width number = String.leftpad (width - 1) ' ' (toString number) ++ " " := by
  have blank : " ".toList = [' '] := rfl
  rw [← String.toList_inj, label, String.toList_ofList, String.toList_append, toList_leftpad,
    Nat.toString_eq_ofList_toDigits, String.toList_ofList, blank, List.leftpad]

/-- All characters of a line number are of one byte. -/
theorem utf8Size_of_mem_label {width number : Nat} {c : Char}
    (h : c ∈ (label width number).toList) : c.utf8Size = 1 := by
  obtain rfl | digit := blank_or_digit_of_mem_label h
  · decide
  · simp only [Char.isDigit, Bool.and_eq_true, decide_eq_true_eq] at digit
    apply Char.utf8Size_eq_one_iff.2
    exact UInt32.le_trans digit.2 (by decide)

/-- No number up to the number of lines is wider than the gutter. -/
theorem length_label {count number : Nat} (h : number ≤ count) :
    (utf8 (label (gutterWidth count) number)).length = gutterWidth count := by
  have fits := length_toDigits_mono h
  rw [length_utf8, ← byteLength_toList, byteLength_eq_length fun c => utf8Size_of_mem_label]
  simp only [label, gutterWidth, String.toList_ofList, List.length_append, List.length_replicate,
    List.length_singleton]
  omega

theorem newline_notMem_label (width number : Nat) : '\n' ∉ (label width number).toList :=
  fun mem => absurd (blank_or_digit_of_mem_label mem) (by decide)

/-! ## The output -/

/-- The bytes of the gutter of a line, in a text with `count` lines. -/
def gutterBytes (lineNumbers : Bool) (count number : Nat) : List UInt8 :=
  (gutterWrites ⟨false, lineNumbers⟩ (gutterWidth count) number).flatMap utf8

variable {lineNumbers : Bool}

theorem gutterBytes_numbered (count number : Nat) :
    gutterBytes true count number = utf8 (label (gutterWidth count) number) :=
  List.flatMap_singleton ..

theorem length_gutterBytes {count number : Nat} (h : number ≤ count) :
    (gutterBytes true count number).length = gutterWidth count := by
  rw [gutterBytes_numbered]
  exact length_label h

theorem newlineByte_notMem_gutterBytes (count number : Nat) :
    newlineByte ∉ gutterBytes lineNumbers count number := by
  cases lineNumbers with
  | false => exact List.not_mem_nil
  | true =>
    rw [gutterBytes_numbered, newlineByte_mem_utf8]
    exact newline_notMem_label _ _

/-- Without colors each line is written behind its gutter, with newlines between them. -/
theorem written_uncolored (ls : List (List Run)) :
    written (session ⟨false, lineNumbers⟩ theme ⟨none⟩ [.lines ls]) =
      [newlineByte].intercalate ((ls.map fun rs => utf8 (Run.join rs)).mapIdx fun i line =>
        gutterBytes lineNumbers ls.length (i + 1) ++ line) := by
  have newline : ["\n"].flatMap utf8 = [newlineByte] := by decide
  have output : written (session ⟨false, lineNumbers⟩ theme ⟨none⟩ [.lines ls]) =
      (linesWrites ⟨false, lineNumbers⟩ theme ls).flatMap utf8 := by
    rw [session_unlimited_cons]
    simp [written, session, Operation.output, Operation.writes]
  rw [output, linesWrites, flatMap_intercalate, newline]
  simp only [List.mapIdx_eq_zipIdx_map, List.zipIdx_map, List.map_map, Function.comp_def,
    Prod.map, List.flatMap_append, gutterBytes, flatMap_utf8 (runsWrites ..), join_runsWrites, id]

/-- The lines of runs hold the bytes of the lines of the text. -/
theorem map_utf8_join_lines (h : Highlighter) (text : String) :
    (h.lines text).map (fun rs => utf8 (Run.join rs)) = (utf8 text).splitOn newlineByte := by
  have joined := congrArg (List.map utf8) (h.map_join_lines text)
  rw [List.map_map, List.map_map] at joined
  rw [splitOn_utf8]
  exact joined

/-- The output, cut at its newlines, is the lines of the text, each behind its gutter. -/
theorem splitOn_written_uncolored (h : Highlighter) (text : String) :
    (written (session ⟨false, lineNumbers⟩ theme ⟨none⟩ [.lines (h.lines text)])).splitOn
        newlineByte =
      ((utf8 text).splitOn newlineByte).mapIdx fun i line =>
        gutterBytes lineNumbers (h.lines text).length (i + 1) ++ line := by
  rw [written_uncolored, map_utf8_join_lines]
  apply List.splitOn_intercalate
  · intro piece mem
    obtain ⟨i, hi, rfl⟩ := List.mem_mapIdx.1 mem
    rw [List.mem_append, not_or]
    constructor
    · exact newlineByte_notMem_gutterBytes _ _
    · exact newlineByte_notMem_of_mem_splitOn (List.getElem_mem hi)
  · rw [Ne, List.mapIdx_eq_nil_iff]
    exact List.splitOn_ne_nil _ _

variable (h : Highlighter) (text : String)

/-- A text has as many lines of runs as it has lines. -/
theorem length_lines : (h.lines text).length = ((utf8 text).splitOn newlineByte).length := by
  rw [← map_utf8_join_lines, List.length_map]

theorem splitOn_written_unnumbered :
    (written (session ⟨false, false⟩ theme ⟨none⟩ [.lines (h.lines text)])).splitOn newlineByte =
      (utf8 text).splitOn newlineByte := by
  rw [splitOn_written_uncolored, List.mapIdx_eq_iff]
  exact fun i => Option.map_id'.symm

/-- Numbered lines without the columns of the gutter are the lines of the text. -/
theorem map_drop_splitOn_written :
    ((written (session ⟨false, true⟩ theme ⟨none⟩ [.lines (h.lines text)])).splitOn
        newlineByte).map (List.drop (gutterWidth (h.lines text).length)) =
      (utf8 text).splitOn newlineByte := by
  rw [splitOn_written_uncolored]
  apply List.ext_getElem
  · rw [List.length_map, List.length_mapIdx]
  · intro i _ within
    rw [← length_lines h] at within
    rw [List.getElem_map, List.getElem_mapIdx]
    exact List.drop_left' (length_gutterBytes within)

end Terminal

/-- **Aligned lines.** Without colors the output has the lines of the text. If they are not
numbered it is the text. If they are, each has its number before it, right-aligned and with a blank
behind it, and all the gutters are of one width: without its first columns each line is a line of
the text again. -/
theorem Highlighter.uncolored_lines_aligned (h : Highlighter) (text : String) (theme : Theme) :
    let lines := (utf8 text).splitOn newlineByte
    let count := (h.lines text).length
    let width := Terminal.gutterWidth count
    let output := fun lineNumbers : Bool =>
      Terminal.written
        (Terminal.session ⟨false, lineNumbers⟩ theme ⟨none⟩ [.lines (h.lines text)])
    let gutter := fun number : Nat =>
      utf8 (String.leftpad (width - 1) ' ' (toString number) ++ " ")
    (∀ lineNumbers, ((output lineNumbers).splitOn newlineByte).length = count) ∧
      (output false).splitOn newlineByte = lines ∧
      output false = utf8 text ∧
      (output true).splitOn newlineByte = lines.mapIdx (fun i line => gutter (i + 1) ++ line) ∧
      (∀ number, number ≤ count → (gutter number).length = width) ∧
      ((output true).splitOn newlineByte).map (List.drop width) = lines ∧
      [newlineByte].intercalate (((output true).splitOn newlineByte).map (List.drop width)) =
        utf8 text := by
  intro lines count width output gutter
  have numbers (number : Nat) : gutter number = Terminal.gutterBytes true count number := by
    rw [Terminal.gutterBytes_numbered, Terminal.label_eq]
  have plain : (output false).splitOn newlineByte = lines :=
    Terminal.splitOn_written_unnumbered h text
  have dropped : ((output true).splitOn newlineByte).map (List.drop width) = lines :=
    Terminal.map_drop_splitOn_written h text
  refine ⟨?_, plain, ?_, ?_, ?_, dropped, ?_⟩
  · intro lineNumbers
    rw [Terminal.splitOn_written_uncolored, List.length_mapIdx, ← Terminal.length_lines h text]
  · calc output false
        = [newlineByte].intercalate ((output false).splitOn newlineByte) :=
          (List.intercalate_splitOn _).symm
      _ = [newlineByte].intercalate lines := by rw [plain]
      _ = utf8 text := List.intercalate_splitOn _
  · simp only [numbers]
    exact Terminal.splitOn_written_uncolored h text
  · intro number within
    rw [numbers]
    exact Terminal.length_gutterBytes within
  · rw [dropped, List.intercalate_splitOn]

end LineTint
