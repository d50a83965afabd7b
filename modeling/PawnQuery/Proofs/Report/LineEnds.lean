import PawnQuery.Proofs.Report.BufferHistory
import PawnQuery.Proofs.Report.Decode
import PawnQuery.Proofs.Report.LineScan
import PawnQuery.Proofs.Text.Encoding

/-!
# Line ends of both conventions

Carriage returns in front of line feeds and at the end of a report change nothing.  Decoding drops
them from the ends of lines, where at most one blank line comes of them; a buffer has dropped them
before, wherever its chunks were cut.  Either way the lines are those of the report without them.
-/

namespace PawnQuery

namespace Text

/-- The second text is the first one with carriage returns in front of line feeds and at its end. -/
inductive WithReturns : List Char → List Char → Prop where
  | ended (count : Nat) : WithReturns [] (List.replicate count '\r')
  | newline (count : Nat) {text returned : List Char} (more : WithReturns text returned) :
      WithReturns ('\n' :: text) (List.replicate count '\r' ++ '\n' :: returned)
  | kept (c : Char) {text returned : List Char} (more : WithReturns text returned) :
      WithReturns (c :: text) (c :: returned)

/-! ## Lines -/

theorem dropReturns_append_replicate (line : List Char) (count : Nat) :
    dropReturns (line ++ List.replicate count '\r') = dropReturns line := by
  have returns : ∀ c ∈ List.replicate count '\r', (c == '\r') = true := by simp
  rw [dropReturns, dropReturns, List.reverse_append, List.reverse_replicate,
    List.dropWhile_append_of_pos returns]

/-- The same lines are finished but for returns, and the same line is under way. -/
def LineCut.Agrees (cut other : LineCut) : Prop :=
  cut.finished.map dropReturns = other.finished.map dropReturns ∧ cut.current = other.current

theorem LineCut.Agrees.push {cut other : LineCut} (agrees : cut.Agrees other) (c : Char) :
    (cut.push c).Agrees (other.push c) := by
  obtain ⟨finished, current⟩ := agrees
  by_cases feed : c = '\n'
  · simp [LineCut.Agrees, LineCut.push, feed, finished, current]
  · simp [LineCut.Agrees, LineCut.push, feed, finished, current]

/-- Returns that stand in front of a line feed leave no trace behind it. -/
theorem LineCut.Agrees.newline {cut other : LineCut} (agrees : cut.Agrees other) (count : Nat) :
    (((List.replicate count '\r').foldl LineCut.push cut).push '\n').Agrees (other.push '\n') := by
  obtain ⟨finished, current⟩ := agrees
  have single : '\n' ∉ List.replicate count '\r' := by simp
  rw [LineCut.foldl_push_of_not_mem single]
  simp [LineCut.Agrees, dropReturns_append_replicate, finished, current]

theorem WithReturns.agrees {text returned : List Char} (returns : WithReturns text returned)
    {cut other : LineCut} (agrees : cut.Agrees other) :
    ((returned ++ ['\n']).foldl LineCut.push cut).Agrees
      ((text ++ ['\n']).foldl LineCut.push other) := by
  induction returns generalizing cut other with
  | ended count =>
    rw [List.foldl_append]
    exact agrees.newline count
  | newline count more inductionHypothesis =>
    rw [List.append_assoc, List.foldl_append]
    exact inductionHypothesis (agrees.newline count)
  | kept c more inductionHypothesis => exact inductionHypothesis (agrees.push c)

theorem LineCut.Agrees.finish {cut other : LineCut} (agrees : cut.Agrees other) :
    cut.finish.map dropReturns = other.finish.map dropReturns := by
  obtain ⟨finished, current⟩ := cut
  obtain ⟨finishedOther, currentOther⟩ := other
  obtain ⟨same, rfl⟩ := agrees
  cases current <;> simpa [LineCut.finish] using same

theorem WithReturns.endedLines {text returned : List Char} (returns : WithReturns text returned) :
    (endedLines returned).map dropReturns = (endedLines text).map dropReturns :=
  (returns.agrees ⟨rfl, rfl⟩).finish

/-! ## Characters -/

/-- Nothing but carriage returns has been added. -/
theorem WithReturns.filter {text returned : List Char} (returns : WithReturns text returned)
    (clean : '\r' ∉ text) : returned.filter (· != '\r') = text := by
  induction returns with
  | ended count => simp
  | newline count more inductionHypothesis =>
    rw [List.mem_cons, not_or] at clean
    simp [inductionHypothesis clean.2]
  | kept c more inductionHypothesis =>
    rw [List.mem_cons, not_or] at clean
    simp [inductionHypothesis clean.2, Ne.symm clean.1]

end Text

namespace Report

open PawnQuery.Text (WithReturns decodeLossy endedLines dropReturns)

/-- Decoding does not tell a report from one with carriage returns at the ends of its lines. -/
theorem decodeLines_of_returns {text returned : List Char} (returns : WithReturns text returned) :
    decodeLines returned = decodeLines text := by
  rw [decodeLines_eq, decodeLines_eq, ← outcomesFrom_endedLines, ← outcomesFrom_endedLines,
    returns.endedLines]

/-! ## Bytes -/

/-- The only character with the byte of a carriage return is the carriage return. -/
theorem withoutReturns_utf8EncodeChar (c : Char) :
    withoutReturns (String.utf8EncodeChar c) = if c = '\r' then [] else String.utf8EncodeChar c := by
  by_cases returns : c = '\r'
  · subst returns
    rfl
  · have absent : 0x0D ∉ String.utf8EncodeChar c :=
      (encodes_utf8EncodeChar c).ne_ascii returns (by decide) rfl
    rw [if_neg returns, withoutReturns, List.filter_eq_self]
    rintro b among
    exact bne_iff_ne.mpr fun same => absent (same ▸ among)

theorem withoutReturns_utf8 (text : List Char) :
    withoutReturns (utf8 text) = utf8 (text.filter (· != '\r')) := by
  induction text with
  | nil => rfl
  | cons c text inductionHypothesis =>
    rw [utf8_cons, withoutReturns_append, withoutReturns_utf8EncodeChar, inductionHypothesis]
    by_cases returns : c = '\r' <;> simp [returns]

/-- A buffer with room for a text holds the text, however its bytes were cut into chunks and
whatever carriage returns stood among them. -/
theorem text_of_chunks {limit : Nat} {text : List Char} (room : (utf8 text).length ≤ limit)
    {chunks : List (List UInt8)} (bytes : withoutReturns chunks.flatten = utf8 text) :
    (chunks.foldl Buffer.push { limit := limit }).text = text := by
  have holds := Buffer.push_holding limit [] chunks.flatten
  rw [List.nil_append, bytes, ← Buffer.foldl_push, Buffer.holding_nil] at holds
  have kept : (utf8 text).take limit = utf8 text := List.take_of_length_le room
  rw [holds]
  show decodeLossy ((utf8 text).take limit) = text
  rw [kept]
  exact Text.decodeLossy_flatMap text

/-- A report is decoded to the same records and warnings with carriage returns at the ends of its
lines as without them, whether it is decoded as it stands or has come through a buffer with room for
it in chunks of any size. -/
theorem line_ends_agree {text returned : List Char} (clean : '\r' ∉ text)
    (returns : WithReturns text returned) {limit : Nat} (room : (utf8 text).length ≤ limit)
    {chunks : List (List UInt8)} (cut : chunks.flatten = utf8 returned) :
    decodeLines returned = decodeLines text ∧
      decodeLines (chunks.foldl Buffer.push { limit := limit }).text = decodeLines text := by
  have bytes : withoutReturns chunks.flatten = utf8 text := by
    rw [cut, withoutReturns_utf8, returns.filter clean]
  exact ⟨decodeLines_of_returns returns, by rw [text_of_chunks room bytes]⟩

/-- Two bad lines with a blank one between them; the last line is not ended, and its character comes
in two chunks. -/
theorem line_ends_agree_unended :
    let text := ['\x7b', '\n', '\n', 'é']
    let returned := ['\x7b', '\r', '\r', '\n', '\r', '\n', 'é', '\r']
    let chunks := [(utf8 returned).take 7, (utf8 returned).drop 7]
    ('\r' ∉ text ∧ WithReturns text returned ∧ (utf8 text).length ≤ 5 ∧
        chunks.flatten = utf8 returned) ∧
      decodeLines returned = decodeLines text ∧
      decodeLines (chunks.foldl Buffer.push { limit := 5 }).text = decodeLines text ∧
      (decodeLines text).warnings.map Warning.line = [1, 3] := by
  intro text returned chunks
  have returns : WithReturns text returned :=
    .kept '\x7b' (.newline 2 (.newline 1 (.kept 'é' (.ended 1))))
  have clean : '\r' ∉ text := by decide
  have room : (utf8 text).length ≤ 5 := by decide
  have cut : chunks.flatten = utf8 returned := by decide
  obtain ⟨direct, buffered⟩ := line_ends_agree clean returns room cut
  exact ⟨⟨clean, returns, room, cut⟩, direct, buffered, by decide +kernel⟩

end Report

end PawnQuery
