import LineTint.Proofs.Replay

/-!
# Nothing is lost

The texts of the runs of a text are the text, in order: `Text.lines` cuts it at its newlines, the
runs of a line are the line, and the newlines come back as runs of their own.
-/

namespace LineTint
set_option autoImplicit false
open Text

namespace Text

theorem length_splitOn {α : Type} [DecidableEq α] (a : α) (xs : List α) :
    (xs.splitOn a).length = xs.count a + 1 := by
  induction xs with
  | nil => rfl
  | cons x xs ih =>
    rw [List.splitOn_cons_eq_if_modifyHead, List.count_cons]
    split
    · rw [List.length_cons, ih]
    · rw [List.length_modifyHead, ih]

theorem notMem_of_mem_splitOn {α : Type} [DecidableEq α] {a : α} {xs piece : List α}
    (h : piece ∈ xs.splitOn a) : a ∉ piece := by
  induction xs generalizing piece with
  | nil =>
    obtain rfl := List.mem_singleton.1 h
    exact List.not_mem_nil
  | cons x xs ih =>
    rw [List.splitOn_cons_eq_if_modifyHead] at h
    split at h
    · rcases List.mem_cons.1 h with rfl | h
      · exact List.not_mem_nil
      · exact ih h
    · rename_i ne
      obtain ⟨first, others, e⟩ := List.exists_cons_of_ne_nil (List.splitOn_ne_nil a xs)
      rw [e] at h ih
      rcases List.mem_cons.1 h with rfl | h
      · have other : a ≠ x := fun same => ne (beq_iff_eq.2 same.symm)
        exact List.not_mem_cons_of_ne_of_not_mem other (ih List.mem_cons_self)
      · exact ih (List.mem_cons_of_mem _ h)

end Text

/-! ## Lists with a separator between them -/

theorem flatMap_intercalate {α β : Type} (f : α → List β) (sep : List α) (xss : List (List α)) :
    (sep.intercalate xss).flatMap f = (sep.flatMap f).intercalate (xss.map (·.flatMap f)) := by
  induction xss with
  | nil => rfl
  | cons xs xss ih =>
    cases xss with
    | nil => simp
    | cons ys xss =>
      rw [List.intercalate_cons_cons, List.flatMap_append, List.flatMap_append, ih]
      simp only [List.map_cons, List.intercalate_cons_cons]

theorem mem_intercalate {α : Type} {x : α} {sep : List α} {xss : List (List α)}
    (h : x ∈ sep.intercalate xss) : x ∈ sep ∨ ∃ xs ∈ xss, x ∈ xs := by
  induction xss with
  | nil => exact absurd h (by simp)
  | cons xs xss ih =>
    cases xss with
    | nil =>
      rw [List.intercalate_singleton] at h
      exact .inr ⟨xs, List.mem_cons_self, h⟩
    | cons ys xss =>
      rw [List.intercalate_cons_cons, List.mem_append, List.mem_append] at h
      rcases h with (h | h) | h
      · exact .inr ⟨xs, List.mem_cons_self, h⟩
      · exact .inl h
      · rcases ih h with h | ⟨zs, hz, h⟩
        · exact .inl h
        · exact .inr ⟨zs, List.mem_cons_of_mem _ hz, h⟩

namespace Run

/-- The text of runs, one after the other. -/
def join (rs : List Run) : String :=
  String.join (rs.map (·.text))

theorem toList_join (rs : List Run) : (join rs).toList = rs.flatMap (·.text.toList) := by
  rw [join, String.toList_join, List.flatMap_map]

end Run

namespace Highlighter

theorem join_runs (h : Highlighter) (line : String) : Run.join (h.runs line) = line := by
  rw [← String.toList_inj, Run.toList_join]
  exact Run.flatMap_ofSpans 0 line.toList (h.spans line)

/-- A run of a text is a newline or a run of one of its lines. -/
theorem eq_newline_or_mem_runs {h : Highlighter} {text : String} {r : Run} (hr : r ∈ h.text text) :
    r = Run.newline ∨ ∃ line, '\n' ∉ line.toList ∧ r ∈ h.runs line := by
  rcases mem_intercalate hr with hr | ⟨rs, hrs, hr⟩
  · exact .inl (List.mem_singleton.1 hr)
  · simp only [Highlighter.lines, Text.lines, List.map_map, List.mem_map] at hrs
    obtain ⟨cs, hcs, rfl⟩ := hrs
    refine .inr ⟨.ofList cs, ?_, hr⟩
    rw [String.toList_ofList]
    exact notMem_of_mem_splitOn hcs

theorem text_ne_of_mem_runs {h : Highlighter} {line : String} {r : Run} (hr : r ∈ h.runs line) :
    r.text ≠ "" :=
  (h.cut_spans line).text_ne hr

/-- All characters of a run are in its line. -/
theorem mem_line_of_mem_run {h : Highlighter} {line : String} {r : Run} (hr : r ∈ h.runs line)
    {c : Char} (hc : c ∈ r.text.toList) : c ∈ line.toList := by
  rw [← h.join_runs line, Run.toList_join]
  exact List.mem_flatMap.2 ⟨r, hr, hc⟩

/-- The runs of the lines are the lines. -/
theorem map_join_lines (h : Highlighter) (text : String) :
    (h.lines text).map Run.join = (text.toList.splitOn '\n').map String.ofList := by
  simp only [Highlighter.lines, Text.lines, List.map_map]
  refine List.map_congr_left fun cs _ => ?_
  exact h.join_runs (.ofList cs)

theorem join_text (h : Highlighter) (text : String) : Run.join (h.text text) = text := by
  have newline : [Run.newline].flatMap (·.text.toList) = ['\n'] := rfl
  have lines : (h.lines text).map (·.flatMap (·.text.toList)) = text.toList.splitOn '\n' := by
    calc (h.lines text).map (·.flatMap (·.text.toList))
        = ((h.lines text).map Run.join).map String.toList := by
          simp only [List.map_map, Function.comp_def, Run.toList_join]
      _ = text.toList.splitOn '\n' := by
          simp only [map_join_lines, List.map_map, Function.comp_def, String.toList_ofList,
            List.map_id']
  rw [← String.toList_inj, Run.toList_join, Highlighter.text, flatMap_intercalate, newline, lines,
    List.intercalate_splitOn]

/-- **Highlighting loses nothing**: the runs of a text are the text, none of them empty and none
with a kind across a newline, and there is one list of runs for each line. -/
theorem text_lossless (h : Highlighter) (text : String) :
    Run.join (h.text text) = text ∧
    (∀ r ∈ h.text text, r.text ≠ "" ∧ (r.kind.isSome → '\n' ∉ r.text.toList)) ∧
    (h.lines text).length = text.toList.count '\n' + 1 ∧
    (h.lines text).map Run.join = (text.toList.splitOn '\n').map String.ofList := by
  refine ⟨h.join_text text, fun r hr => ?_, ?_, h.map_join_lines text⟩
  · rcases eq_newline_or_mem_runs hr with rfl | ⟨line, noNewline, hr⟩
    · exact ⟨by decide, fun kind => absurd kind (by decide)⟩
    · exact ⟨text_ne_of_mem_runs hr, fun _ mem => noNewline (mem_line_of_mem_run hr mem)⟩
  · have := congrArg List.length (h.map_join_lines text)
    simpa only [List.length_map, length_splitOn] using this

end Highlighter
end LineTint
