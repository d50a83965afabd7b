import PawnQuery.Report.Decode
import PawnQuery.Proofs.Text.Lines
import PawnQuery.Proofs.Text.Utf8

/-!
# Lines decoded independently

What a line of a report gives depends on that line alone, and on its number where it gives a
warning.  The relation `Reads` says so line by line; decoding is shown to follow it, and to
distribute over a line feed between two reports, for texts and for the bytes they are read from.
-/

namespace PawnQuery.Report

open PawnQuery.Text (rawLines endedLines lines dropReturns allBlank decodeLossy)

/-! ## Line by line -/

/-- What one line gives: nothing if it is blank, else a record or a warning with its number. -/
inductive Gives (number : Nat) (line : List Char) : List Record → List Warning → Prop where
  | nothing (blank : allBlank line = true) : Gives number line [] []
  | record {r : Record} (filled : allBlank line = false) (holds : decodeLine line = .ok r) :
      Gives number line [r] []
  | warning {w : Warning} {e : LineError} (filled : allBlank line = false)
      (fails : decodeLine line = .error e) (about : w = .ofError number e)
      (numbered : w.line = number) : Gives number line [] [w]

/-- What lines give one after the other, the first of them counted as `number`. -/
inductive Reads : Nat → List (List Char) → List Record → List Warning → Prop where
  | finished {number : Nat} : Reads number [] [] []
  | line {number : Nat} {line : List Char} {rest : List (List Char)} {records : List Record}
      {warnings : List Warning} {laterRecords : List Record} {laterWarnings : List Warning}
      (gives : Gives number line records warnings)
      (reads : Reads (number + 1) rest laterRecords laterWarnings) :
      Reads number (line :: rest) (records ++ laterRecords) (warnings ++ laterWarnings)

def Decoded.ofOutcomes (outcomes : List Outcome) : Decoded :=
  ⟨outcomes.filterMap Outcome.record?, outcomes.filterMap Outcome.warning?⟩

theorem decodeLines_eq (report : List Char) :
    decodeLines report = .ofOutcomes (outcomesFrom 1 (lines report)) := rfl

theorem outcomesFrom_cons (number : Nat) (line : List Char) (rest : List (List Char)) :
    outcomesFrom number (line :: rest) =
      (Outcome.ofLine number line).toList ++ outcomesFrom (number + 1) rest := by
  unfold outcomesFrom
  rw [List.zipIdx_cons, List.filterMap_cons]
  cases became : Outcome.ofLine number line <;> simp [became]

theorem gives_ofLine (number : Nat) (line : List Char) :
    let d := Decoded.ofOutcomes (Outcome.ofLine number line).toList
    Gives number line d.records d.warnings := by
  unfold Outcome.ofLine
  cases blank : allBlank line with
  | true => exact .nothing blank
  | false =>
    cases decoded : decodeLine line with
    | ok r => exact .record blank decoded
    | error e => exact .warning blank decoded rfl (Warning.line_ofError number e)

theorem reads_outcomesFrom (number : Nat) (lines : List (List Char)) :
    let d := Decoded.ofOutcomes (outcomesFrom number lines)
    Reads number lines d.records d.warnings := by
  induction lines generalizing number with
  | nil => exact .finished
  | cons line rest inductionHypothesis =>
    have reads := Reads.line (gives_ofLine number line) (inductionHypothesis (number + 1))
    simpa only [outcomesFrom_cons, Decoded.ofOutcomes, List.filterMap_append] using reads

/-- The numbers of the warnings go up, from the number of the first line on. -/
theorem Reads.numbers {number : Nat} {lines : List (List Char)} {records : List Record}
    {warnings : List Warning} (reads : Reads number lines records warnings) :
    (∀ w ∈ warnings, number ≤ w.line) ∧ (warnings.map Warning.line).Pairwise (· < ·) := by
  induction reads with
  | finished => simp
  | @line number line rest _ warnings _ laterWarnings gives reads inductionHypothesis =>
    obtain ⟨later, ascending⟩ := inductionHypothesis
    cases gives with
    | nothing | record => exact ⟨fun w member => by have := later w member; omega, ascending⟩
    | @warning w e filled fails about numbered =>
      refine ⟨?_, ?_⟩
      · intro other member
        obtain rfl | member := List.mem_cons.mp member
        · exact Nat.le_of_eq numbered.symm
        · have := later other member
          omega
      · simp only [List.cons_append, List.nil_append, List.map_cons, List.pairwise_cons]
        refine ⟨?_, ascending⟩
        intro n member
        obtain ⟨other, behind, rfl⟩ := List.mem_map.mp member
        have := later other behind
        omega

/-! ## Two reports one after the other -/

/-- The same warning about the line `n` lines further down. -/
def Warning.shift (n : Nat) : Warning → Warning
  | .malformedRecord line error => .malformedRecord (line + n) error
  | .unknownKind line kind => .unknownKind (line + n) kind

def Outcome.shift (n : Nat) : Outcome → Outcome
  | .record r => .record r
  | .warning w => .warning (w.shift n)

theorem ofLine_add (number n : Nat) (line : List Char) :
    Outcome.ofLine (number + n) line = (Outcome.ofLine number line).map (Outcome.shift n) := by
  unfold Outcome.ofLine
  cases allBlank line with
  | true => rfl
  | false =>
    cases decodeLine line with
    | ok r => rfl
    | error e => cases e <;> rfl

theorem outcomesFrom_add (number n : Nat) (lines : List (List Char)) :
    outcomesFrom (number + n) lines = (outcomesFrom number lines).map (Outcome.shift n) := by
  induction lines generalizing number with
  | nil => rfl
  | cons line rest inductionHypothesis =>
    rw [outcomesFrom_cons, outcomesFrom_cons, List.map_append, ofLine_add, Nat.add_right_comm,
      inductionHypothesis]
    cases Outcome.ofLine number line <;> rfl

theorem outcomesFrom_append (number : Nat) (first second : List (List Char)) :
    outcomesFrom number (first ++ second) =
      outcomesFrom number first ++ outcomesFrom (number + first.length) second := by
  simp [outcomesFrom, List.zipIdx_append]

theorem outcomesFrom_endedLines (number : Nat) (text : List Char) :
    outcomesFrom number ((endedLines text).map dropReturns) = outcomesFrom number (lines text) := by
  obtain equal | equal := Text.endedLines_cases text
  · rw [equal, lines]
  · rw [equal, List.map_append, outcomesFrom_append]
    exact List.append_nil _

theorem ofOutcomes_append_shift (n : Nat) (first second : List Outcome) :
    Decoded.ofOutcomes (first ++ second.map (Outcome.shift n)) =
      ⟨(Decoded.ofOutcomes first).records ++ (Decoded.ofOutcomes second).records,
        (Decoded.ofOutcomes first).warnings ++
          (Decoded.ofOutcomes second).warnings.map (Warning.shift n)⟩ := by
  have record : Outcome.record? ∘ Outcome.shift n = Outcome.record? := by
    funext outcome
    cases outcome <;> rfl
  have warning : Outcome.warning? ∘ Outcome.shift n =
      fun outcome => outcome.warning?.map (Warning.shift n) := by
    funext outcome
    cases outcome <;> rfl
  simp only [Decoded.ofOutcomes, List.filterMap_append, List.filterMap_map, record, warning,
    List.map_filterMap]

theorem decodeLines_append_newline (text rest : List Char) :
    decodeLines (text ++ '\n' :: rest) =
      ⟨(decodeLines text).records ++ (decodeLines rest).records,
        (decodeLines text).warnings ++
          (decodeLines rest).warnings.map (Warning.shift (text.count '\n' + 1))⟩ := by
  have apart : outcomesFrom 1 (lines (text ++ '\n' :: rest)) =
      outcomesFrom 1 (lines text) ++
        (outcomesFrom 1 (lines rest)).map (Outcome.shift (text.count '\n' + 1)) := by
    rw [lines, Text.rawLines_append_newline, List.map_append, outcomesFrom_append,
      outcomesFrom_endedLines, List.length_map, Text.length_endedLines, outcomesFrom_add, ← lines]
  rw [decodeLines_eq, apart, ofOutcomes_append_shift]
  rfl

/-- A line that is no record adds none to those of the other lines. -/
theorem records_of_error {line : List Char} (single : '\n' ∉ line) {e : LineError}
    (fails : decodeLine (dropReturns line) = .error e) : (decodeLines line).records = [] := by
  by_cases empty : line = []
  · subst empty
    rfl
  · have alone : lines line = [dropReturns line] := by
      rw [lines, Text.rawLines_of_not_mem single empty, List.map_singleton]
    rw [decodeLines_eq, alone, outcomesFrom_cons]
    unfold Outcome.ofLine
    cases allBlank (dropReturns line) with
    | true => rfl
    | false => simp [fails, Decoded.ofOutcomes, Outcome.record?]

/-- Bytes around a line feed are decoded independently of each other, readable or not; only the
numbers of the later lines go up.  Every line that is not blank gives one record or one warning with
its number, and the numbers of the warnings go up. -/
theorem lines_decoded_independently (first second : List UInt8) :
    let whole := decodeLines (decodeLossy (first ++ 0x0A :: second))
    (whole.records = (decodeLines (decodeLossy first)).records ++
          (decodeLines (decodeLossy second)).records ∧
        whole.warnings = (decodeLines (decodeLossy first)).warnings ++
          (decodeLines (decodeLossy second)).warnings.map (Warning.shift (first.count 0x0A + 1))) ∧
      ∀ report : List Char,
        Reads 1 (lines report) (decodeLines report).records (decodeLines report).warnings ∧
          ((decodeLines report).warnings.map Warning.line).Pairwise (· < ·) := by
  intro whole
  constructor
  · simp only [whole, Text.decodeLossy_append_newline, decodeLines_append_newline,
      Text.count_newline_decodeLossy, and_self]
  · intro report
    have reads := reads_outcomesFrom 1 (lines report)
    exact ⟨reads, reads.numbers.2⟩

end PawnQuery.Report
