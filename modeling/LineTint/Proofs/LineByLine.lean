import LineTint.Proofs.Lossless
import LineTint.Terminal.Session

/-!
# Lines are independent

Highlighting goes line by line and nothing is carried over a newline, so a newline parts the runs
of a text as it parts the text (`Highlighter.lines_append_newline`,
`Highlighter.text_append_newline`). The runs of a text can be had in two ways: as one list for each
line, and as one list with the newlines in it, which `Highlighter.collect` fills in a loop over the
lines. Without line numbers a terminal writes the same texts for both
(`Terminal.linesWrites_unnumbered`), so whatever takes them, the deliveries are the same.
-/

namespace LineTint
set_option autoImplicit false
open Text

/-! ## Lists with a separator between them -/

theorem intercalate_cons {α : Type} (sep xs : List α) (xss : List (List α)) :
    sep.intercalate (xs :: xss) = xs ++ xss.flatMap (sep ++ ·) := by
  induction xss generalizing xs with
  | nil => simp
  | cons ys xss ih =>
    rw [List.intercalate_cons_cons, ih, List.flatMap_cons]
    simp only [List.append_assoc]

theorem intercalate_append {α : Type} {sep : List α} {xss yss : List (List α)} (hx : xss ≠ [])
    (hy : yss ≠ []) :
    sep.intercalate (xss ++ yss) = sep.intercalate xss ++ sep ++ sep.intercalate yss := by
  obtain ⟨xs, xss, rfl⟩ := List.exists_cons_of_ne_nil hx
  obtain ⟨ys, yss, rfl⟩ := List.exists_cons_of_ne_nil hy
  rw [List.cons_append, intercalate_cons, intercalate_cons, intercalate_cons, List.flatMap_append,
    List.flatMap_cons]
  simp only [List.append_assoc]

theorem Text.lines_ne_nil (text : String) : Text.lines text ≠ [] := by
  rw [Text.lines, Ne, List.map_eq_nil_iff]
  exact List.splitOn_ne_nil '\n' text.toList

namespace Highlighter

variable (h : Highlighter)

/-! ## A newline between two texts -/

theorem lines_append_newline (a b : String) :
    h.lines (a ++ "\n" ++ b) = h.lines a ++ h.lines b := by
  have cut : (a ++ "\n" ++ b).toList = a.toList ++ '\n' :: b.toList := by simp
  rw [Highlighter.lines, Text.lines, cut, List.splitOn_append_cons_self, List.map_append,
    List.map_append]
  rfl

theorem lines_ne_nil (text : String) : h.lines text ≠ [] := by
  rw [Highlighter.lines, Ne, List.map_eq_nil_iff]
  exact Text.lines_ne_nil text

theorem text_append_newline (a b : String) :
    h.text (a ++ "\n" ++ b) = h.text a ++ [Run.newline] ++ h.text b := by
  rw [Highlighter.text, lines_append_newline]
  exact intercalate_append (h.lines_ne_nil a) (h.lines_ne_nil b)

/-! ## The loop over the lines -/

/-- The loop over the lines of a text from the one with number `i` on, counted from zero, where
`rs` are the runs so far: every line but the first has a newline in front of its runs. -/
def collect : Nat → List Run → List String → List Run
  | _, rs, [] => rs
  | i, rs, line :: lines =>
    let rs := if 0 < i then rs ++ [Run.newline] else rs
    collect (i + 1) (rs ++ h.runs line) lines

theorem collect_succ (i : Nat) (rs : List Run) (lines : List String) :
    h.collect (i + 1) rs lines = rs ++ (lines.map h.runs).flatMap ([Run.newline] ++ ·) := by
  induction lines generalizing i rs with
  | nil => simp [collect]
  | cons line lines ih =>
    rw [collect, if_pos (Nat.succ_pos i), ih, List.map_cons, List.flatMap_cons]
    simp only [List.append_assoc]

/-- The loop puts one newline between the runs of two lines. -/
theorem collect_lines (text : String) : h.collect 0 [] (Text.lines text) = h.text text := by
  obtain ⟨line, lines, e⟩ := List.exists_cons_of_ne_nil (Text.lines_ne_nil text)
  rw [Highlighter.text, Highlighter.lines, e, collect, if_neg (Nat.lt_irrefl 0), collect_succ,
    List.map_cons, intercalate_cons, List.nil_append]

end Highlighter

/-! ## Two ways to write -/

namespace Terminal

variable {color : Bool} {theme : Theme}

theorem runWrites_newline (t : Terminal) : runWrites t theme Run.newline = ["\n"] := rfl

/-- Without line numbers, lines are written as their runs are with newlines between them. -/
theorem linesWrites_unnumbered (lines : List (List Run)) :
    linesWrites ⟨color, false⟩ theme lines =
      runsWrites ⟨color, false⟩ theme ([Run.newline].intercalate lines) := by
  have newline : [Run.newline].flatMap (runWrites ⟨color, false⟩ theme) = ["\n"] := by
    rw [List.flatMap_singleton, runWrites_newline]
  have noNumbers : (lines.mapIdx fun i rs =>
      gutterWrites ⟨color, false⟩ (gutterWidth lines.length) (i + 1) ++
        runsWrites ⟨color, false⟩ theme rs) = lines.map (runsWrites ⟨color, false⟩ theme) := by
    apply List.ext_getElem?
    intro i
    rw [List.getElem?_mapIdx, List.getElem?_map]
    rfl
  rw [linesWrites, noNumbers, runsWrites, flatMap_intercalate, newline]
  rfl

end Terminal

namespace Highlighter
open Terminal

/-- **Lines are independent and both ways to have runs agree.** A newline between two texts is a
newline between their runs, and parts their lists of lines. The runs of a text are those of its
lines with one newline between two lists, as the loop collects them; and without line numbers,
writing the lists line by line delivers what writing the runs of the whole text does. -/
theorem lines_independent (h : Highlighter) (a b text : String) :
    h.text (a ++ "\n" ++ b) = h.text a ++ [Run.newline] ++ h.text b ∧
    h.lines (a ++ "\n" ++ b) = h.lines a ++ h.lines b ∧
    h.text text = [Run.newline].intercalate (h.lines text) ∧
    h.collect 0 [] (Text.lines text) = h.text text ∧
    ∀ (color : Bool) (theme : Theme) (sink : Sink),
      session ⟨color, false⟩ theme sink [.lines (h.lines text)] =
        session ⟨color, false⟩ theme sink [.runs (h.text text)] := by
  refine ⟨h.text_append_newline a b, h.lines_append_newline a b, rfl, h.collect_lines text, ?_⟩
  intro color theme sink
  have same : Operation.writes ⟨color, false⟩ theme (.lines (h.lines text)) =
      Operation.writes ⟨color, false⟩ theme (.runs (h.text text)) :=
    linesWrites_unnumbered (h.lines text)
  simp only [session, same]

end Highlighter
end LineTint
