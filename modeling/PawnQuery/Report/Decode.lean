import PawnQuery.Report.Envelope
import PawnQuery.Report.NonFinite
import PawnQuery.Report.Record
import PawnQuery.Text.Blank
import PawnQuery.Text.Lines

/-!
# Decoding a report

Lines are decoded independently of each other.  A line that is blank holds nothing; any other line
gives one record or one warning that carries the line's number, counted from one with blank lines
included.
-/

namespace PawnQuery.Report

open PawnQuery.Json (Fault)

inductive LineError where
  /-- The line is not JSON, or not of the shape its kind requires. -/
  | malformed (fault : Fault)
  | unknownKind (kind : String)
  /-- The report could not be read on. -/
  | unreadable (reason : String)
deriving DecidableEq, Repr

def LineError.message : LineError → String
  | .malformed fault => "JSON error: " ++ fault.message
  | .unknownKind kind => "unknown record kind: " ++ kind
  | .unreadable reason => "IO error: " ++ reason

def decodeLine (line : List Char) : Except LineError Record :=
  match Envelope.parse (normalizeNonFinite line) with
  | .error fault => .error (.malformed fault)
  | .ok envelope =>
    match Kind.ofName? envelope.kind with
    | none => .error (.unknownKind envelope.kind)
    | some kind =>
      match Record.ofPayload kind envelope.payload with
      | .error fault => .error (.malformed ⟨.misshapen fault, none⟩)
      | .ok record => .ok record

/-! ## Warnings -/

inductive Warning where
  | malformedRecord (line : Nat) (error : String)
  | unknownKind (line : Nat) (kind : String)
deriving DecidableEq, Repr, Inhabited

namespace Warning

def line : Warning → Nat
  | .malformedRecord line _ => line
  | .unknownKind line _ => line

def kindName : Warning → String
  | .malformedRecord .. => "malformed_record"
  | .unknownKind .. => "unknown_kind"

def description : Warning → String
  | .malformedRecord line error => "line " ++ toString line ++ ": malformed record: " ++ error
  | .unknownKind line kind => "line " ++ toString line ++ ": unknown record kind '" ++ kind ++ "'"

def ofError (line : Nat) : LineError → Warning
  | .unknownKind kind => .unknownKind line kind
  | error => .malformedRecord line error.message

@[simp] theorem line_ofError (n : Nat) (e : LineError) : (ofError n e).line = n := by
  cases e <;> rfl

end Warning

/-! ## Whole reports -/

inductive Outcome where
  | record (record : Record)
  | warning (warning : Warning)
deriving DecidableEq, Repr, Inhabited

namespace Outcome

def record? : Outcome → Option Record
  | .record r => some r
  | .warning _ => none

def warning? : Outcome → Option Warning
  | .record _ => none
  | .warning w => some w

/-- What becomes of line `number`; nothing if it is blank. -/
def ofLine (number : Nat) (line : List Char) : Option Outcome :=
  if Text.allBlank line then none
  else
    match decodeLine line with
    | .ok r => some (.record r)
    | .error e => some (.warning (.ofError number e))

end Outcome

/-- The records of a report and the warnings about its other lines, both in line order. -/
structure Decoded where
  records : List Record := []
  warnings : List Warning := []
deriving DecidableEq, Repr

/-- What became of the lines of a report, the first of them counted as `start`. -/
def outcomesFrom (start : Nat) (lines : List (List Char)) : List Outcome :=
  (lines.zipIdx start).filterMap fun (line, number) => Outcome.ofLine number line

def decodeLines (report : List Char) : Decoded :=
  let outcomes := outcomesFrom 1 (Text.lines report)
  ⟨outcomes.filterMap Outcome.record?, outcomes.filterMap Outcome.warning?⟩

@[simp] theorem outcomesFrom_nil (start : Nat) : outcomesFrom start [] = [] := rfl

end PawnQuery.Report
