import PawnQuery.Report.Record

/-!
# Diagnostic logs

The diagnostics of one compiled script in the order in which they were reported.
-/

namespace PawnQuery.Symbols

open PawnQuery.Report
open PawnQuery.Json (Value)

structure DiagnosticLog where
  entries : List Diagnostic := []
deriving DecidableEq, Repr, Inhabited

def lowerChar (c : Char) : Char :=
  if 'A' ≤ c ∧ c ≤ 'Z' then Char.ofNat (c.toNat + 0x20) else c

def lowerText (s : String) : String := String.ofList (s.toList.map lowerChar)

namespace DiagnosticLog

def push (log : DiagnosticLog) (d : Diagnostic) : DiagnosticLog := ⟨log.entries ++ [d]⟩

def length (log : DiagnosticLog) : Nat := log.entries.length

def isEmpty (log : DiagnosticLog) : Bool := log.entries.isEmpty

/-- The diagnostic is of this severity, letter case of ASCII aside. -/
def hasSeverity (severity : String) (d : Diagnostic) : Bool :=
  d.severity.any fun s => lowerText s == lowerText severity

def countSeverity (log : DiagnosticLog) (severity : String) : Nat :=
  log.entries.countP (hasSeverity severity)

def toValue (log : DiagnosticLog) : Value := .array (log.entries.map Diagnostic.toValue)

@[simp] theorem entries_push (log : DiagnosticLog) (d : Diagnostic) :
    (log.push d).entries = log.entries ++ [d] := rfl

@[simp] theorem length_push (log : DiagnosticLog) (d : Diagnostic) :
    (log.push d).length = log.length + 1 := by
  simp [length]

end DiagnosticLog

end PawnQuery.Symbols
