import Mathlib.Data.List.Basic
import PawnQuery.Text.Lines

/-!
# Lines on both sides of a line feed

A line feed ends a line whatever follows it, so the lines of a text are those up to a line feed and
then those behind it.  A text has one line for each of its line feeds, and one more if something
stands behind the last of them.
-/

namespace PawnQuery.Text

namespace LineCut

/-- The text with these lines, the latest first, cut before all others. -/
def onto (cut : LineCut) (base : List (List Char)) : LineCut := ⟨cut.finished ++ base, cut.current⟩

theorem push_onto (cut : LineCut) (base : List (List Char)) (c : Char) :
    (cut.onto base).push c = (cut.push c).onto base := by
  unfold push
  split <;> rfl

/-- What was cut before has no part in how the rest is cut. -/
theorem foldl_push_onto (text : List Char) (cut : LineCut) (base : List (List Char)) :
    text.foldl push (cut.onto base) = (text.foldl push cut).onto base := by
  induction text generalizing cut with
  | nil => rfl
  | cons c text inductionHypothesis =>
    rw [List.foldl_cons, push_onto, inductionHypothesis, List.foldl_cons]

theorem finish_onto (cut : LineCut) (base : List (List Char)) :
    (cut.onto base).finish = base.reverse ++ cut.finish := by
  obtain ⟨finished, current⟩ := cut
  cases current <;> simp [onto, finish]

/-- A line feed leaves no line under way. -/
theorem push_newline_onto (cut : LineCut) :
    cut.push '\n' = ({} : LineCut).onto (cut.current.reverse :: cut.finished) := rfl

theorem length_finished_foldl_push (text : List Char) (cut : LineCut) :
    (text.foldl push cut).finished.length = cut.finished.length + text.count '\n' := by
  induction text generalizing cut with
  | nil => simp
  | cons c text inductionHypothesis =>
    rw [List.foldl_cons, inductionHypothesis, List.count_cons]
    by_cases feed : c = '\n'
    · subst feed
      simp
      omega
    · simp [push, feed]

theorem foldl_push_of_not_mem {text : List Char} (single : '\n' ∉ text) (cut : LineCut) :
    text.foldl push cut = ⟨cut.finished, text.reverse ++ cut.current⟩ := by
  induction text generalizing cut with
  | nil => rfl
  | cons c text inductionHypothesis =>
    rw [List.mem_cons, not_or] at single
    obtain ⟨other, rest⟩ := single
    simp [push, Ne.symm other, inductionHypothesis rest]

end LineCut

/-- A text without line feeds is one line, unless nothing stands in it. -/
theorem rawLines_of_not_mem {text : List Char} (single : '\n' ∉ text) (filled : text ≠ []) :
    rawLines text = [text] := by
  rw [rawLines, LineCut.foldl_push_of_not_mem single]
  cases reversed : text.reverse with
  | nil => exact absurd (List.reverse_eq_nil_iff.mp reversed) filled
  | cons c rest =>
    have same : (c :: rest).reverse = text := by rw [← reversed, List.reverse_reverse]
    simp [LineCut.finish, ← same]

/-- The lines of a text, the last of them ended by a line feed even if nothing stands in it. -/
def endedLines (text : List Char) : List (List Char) := rawLines (text ++ ['\n'])

theorem rawLines_append_newline (text rest : List Char) :
    rawLines (text ++ '\n' :: rest) = endedLines text ++ rawLines rest := by
  simp only [endedLines, rawLines, List.foldl_append, List.foldl_cons, List.foldl_nil,
    LineCut.push_newline_onto, LineCut.foldl_push_onto, LineCut.finish_onto]
  simp [LineCut.finish]

theorem length_endedLines (text : List Char) :
    (endedLines text).length = text.count '\n' + 1 := by
  have cut := LineCut.length_finished_foldl_push text {}
  simp [endedLines, rawLines, LineCut.finish, cut]

/-- To end the last line adds a line with nothing in it, or no line. -/
theorem endedLines_cases (text : List Char) :
    endedLines text = rawLines text ∨ endedLines text = rawLines text ++ [[]] := by
  simp only [endedLines, rawLines, List.foldl_append, List.foldl_cons, List.foldl_nil,
    LineCut.push_newline]
  obtain ⟨finished, current⟩ := text.foldl LineCut.push {}
  cases current with
  | nil => exact .inr (by simp [LineCut.finish])
  | cons c current => exact .inl rfl

end PawnQuery.Text
