import LineTint.Proofs.Lossless
import LineTint.Proofs.Screen
import LineTint.Tool.Basic

/-!
# Output without colors

Without colors and line numbers a terminal writes the texts of the runs and nothing else
(`Terminal.join_linesWrites`, `Terminal.join_runsWrites`), and the runs of a text are the text.
So the tool prints what it has read, byte for byte, or fails before it prints anything if that is
no UTF-8 (`Tool.run_verbatim`), whatever the language of the text and the settings are.
-/

namespace LineTint
set_option autoImplicit false
open Text

namespace Text

/-- A decoded text is written in the bytes it was read from. -/
theorem utf8_of_decode? {bytes : List UInt8} {text : String} (h : decode? bytes = some text) :
    utf8 text = bytes := by
  unfold decode? String.fromUTF8? at h
  split at h
  · obtain rfl := Option.some.inj h
    show bytes.toByteArray.data.toList = bytes
    rw [List.data_toByteArray]
  · exact absurd h (by simp)

theorem decode?_eq_some_iff {bytes : List UInt8} {text : String} :
    decode? bytes = some text ↔ utf8 text = bytes := by
  constructor
  · exact utf8_of_decode?
  · rintro rfl
    exact Terminal.decode?_utf8 text

end Text

/-! ## What a terminal writes -/

namespace Terminal

variable {theme : Theme}

/-- Without colors the texts of the runs are written as they are. -/
theorem join_runsWrites (lineNumbers : Bool) (rs : List Run) :
    String.join (runsWrites ⟨false, lineNumbers⟩ theme rs) = Run.join rs := by
  have one : ∀ r : Run, runWrites ⟨false, lineNumbers⟩ theme r = [r.text] := by
    intro r
    unfold runWrites
    split <;> rfl
  unfold runsWrites Run.join
  rw [List.map_eq_flatMap, funext one]

/-- Lines are written one after the other, each behind its gutter, with newlines between them. -/
theorem join_linesWrites (t : Terminal) (lines : List (List Run)) :
    (String.join (t.linesWrites theme lines)).toList =
      ['\n'].intercalate (lines.mapIdx fun i rs =>
        (String.join (t.gutterWrites (gutterWidth lines.length) (i + 1))).toList ++
          (String.join (t.runsWrites theme rs)).toList) := by
  have newline : ["\n"].flatMap String.toList = ['\n'] := rfl
  rw [String.toList_join, linesWrites, flatMap_intercalate, newline]
  simp only [List.mapIdx_eq_zipIdx_map, List.map_map, Function.comp_def, List.flatMap_append,
    String.toList_join]

/-- Without colors and line numbers the lines of a text are written as the text. -/
theorem join_linesWrites_lines (h : Highlighter) (text : String) :
    String.join (linesWrites ⟨false, false⟩ theme (h.lines text)) = text := by
  have lines : (h.lines text).map (fun rs => (Run.join rs).toList) = text.toList.splitOn '\n' := by
    have := congrArg (List.map String.toList) (h.map_join_lines text)
    simpa only [List.map_map, Function.comp_def, String.toList_ofList, List.map_id'] using this
  have noGutter : ∀ width number, gutterWrites ⟨false, false⟩ width number = [] := fun _ _ => rfl
  have noNumber : (h.lines text).mapIdx (fun _ rs => (Run.join rs).toList) =
      (h.lines text).map fun rs => (Run.join rs).toList :=
    List.ext_getElem? fun i => by simp
  rw [← String.toList_inj, join_linesWrites]
  simp only [noGutter, join_runsWrites, String.join_nil, String.toList_empty, List.nil_append]
  rw [noNumber, lines, List.intercalate_splitOn]

end Terminal

/-! ## What the tool prints -/

namespace Tool

variable {i : Invocation} {s : Settings}

theorem render_verbatim (colors : i.noColor = true ∨ s.color = false)
    (numbers : i.lineNumbers = false ∧ s.lineNumbers = false) (text : String) :
    render i s text = text := by
  have uncolored : (s.color && !i.noColor) = false := by
    rcases colors with noColor | off
    · rw [noColor, Bool.not_true, Bool.and_false]
    · rw [off, Bool.false_and]
  have unnumbered : (s.lineNumbers || i.lineNumbers) = false := by
    rw [numbers.1, numbers.2, Bool.or_false]
  rw [render, uncolored, unnumbered]
  exact Terminal.join_linesWrites_lines _ text

/-- A run that is to show a text finishes with the settings that it has loaded. -/
theorem run_eq_finish {arguments : List (List UInt8)} {around : Surroundings}
    (accepted : Arguments.read arguments = .ok (.run i)) (shows : i.listLanguages = false) :
    runBytes arguments around = finish i (Settings.load around.settings) (i.input around) := by
  rw [runBytes, accepted]
  simp only [shows, Bool.false_eq_true, if_false]

/-- **The tool prints its input** byte for byte where colors and line numbers are off, and prints
nothing of an input that is no UTF-8. -/
theorem run_verbatim {arguments : List (List UInt8)} {around : Surroundings} {bytes : List UInt8}
    (accepted : Arguments.read arguments = .ok (.run i)) (shows : i.listLanguages = false)
    (readable : i.input around = .ok bytes) :
    let s := Settings.load around.settings
    let o := runBytes arguments around
    ((i.noColor = true ∨ s.color = false) → (i.lineNumbers = false ∧ s.lineNumbers = false) →
      (∃ text, bytes = utf8 text) → o.exitCode = 0 ∧ utf8 o.output = bytes ∧ o.error = none) ∧
    ((¬∃ text, bytes = utf8 text) → o.exitCode = 1 ∧ utf8 o.output = []) := by
  rw [run_eq_finish accepted shows, readable]
  constructor
  · rintro colors numbers ⟨text, rfl⟩
    simp only [finish, Terminal.decode?_utf8, Outcome.done, render_verbatim colors numbers,
      and_self]
  · intro foreign
    have undecoded : decode? bytes = none := by
      rw [Option.eq_none_iff_forall_ne_some]
      intro text decoded
      exact foreign ⟨text, (utf8_of_decode? decoded).symm⟩
    simp only [finish, undecoded, Outcome.failed, true_and]
    rfl

/-- What a run finds around it where the settings turn colors off and every file has the given
bytes. -/
def uncoloredSurroundings (bytes : List UInt8) : Surroundings where
  settings := some (utf8 "[editor]\ncolor = false\n")
  readFile _ := .ok bytes
  input := []

/-- A Kotlin file whose name is no UTF-8, with two lines that have carriage returns and characters
of several bytes, and with bytes that are no text. -/
theorem run_uncoloredSurroundings :
    let file : List UInt8 := [0x61, 0xFF] ++ utf8 ".kt"
    let bytes := utf8 "val é = \"ß\"\r\n// 1\r\n"
    let o := runBytes [file] (uncoloredSurroundings bytes)
    (o.exitCode = 0 ∧ utf8 o.output = bytes ∧ o.error = none) ∧
      (runBytes [file] (uncoloredSurroundings [0xFF])).exitCode = 1 := by
  intro file bytes
  have accepted : Arguments.read [file] = .ok (.run ⟨some file, none, false, false, false⟩) := by
    rfl
  have off : (Settings.load (some (utf8 "[editor]\ncolor = false\n"))).color = false ∧
      (Settings.load (some (utf8 "[editor]\ncolor = false\n"))).lineNumbers = false := by
    decide +kernel
  have foreign : ¬∃ text, [0xFF] = utf8 text := by
    rintro ⟨text, h⟩
    have undecoded : decode? [0xFF] = none := by rfl
    exact absurd (decode?_eq_some_iff.2 h.symm) (by simp [undecoded])
  have reads : ∀ bytes, Invocation.input ⟨some file, none, false, false, false⟩
      (uncoloredSurroundings bytes) = .ok bytes := fun _ => rfl
  exact ⟨(run_verbatim accepted rfl (reads bytes)).1 (.inr off.1) ⟨rfl, off.2⟩ ⟨_, rfl⟩,
    ((run_verbatim accepted rfl (reads [0xFF])).2 foreign).1⟩

end Tool
end LineTint
