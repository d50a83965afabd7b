import PawnQuery.Context.Timestamp
import PawnQuery.Output.Symbols
import PawnQuery.Symbols.DiagnosticLog

/-!
# Listing diagnostics

The answer that lists the diagnostics of a context and counts the grave ones.
-/

namespace PawnQuery.Output

open PawnQuery.Json (Value)
open PawnQuery.Report (Diagnostic pathValue)
open PawnQuery.Symbols (DiagnosticLog lowerText)

def defaultSeverity : String := "note"

def threeDigits (n : Nat) : String := Context.padded 3 n

/-- How the label of a severity is set off, letter case aside. -/
def severityStyle (severity : String) : Style :=
  match lowerText severity with
  | "error" | "fatal" => .boldRed
  | "warning" => .yellow
  | _ => .cyan

def diagnosticLabel (d : Diagnostic) : String :=
  d.severity.getD defaultSeverity ++
    match d.number with
    | some n => " " ++ threeDigits n
    | none => ""

def diagnosticLines (screen : Screen) (d : Diagnostic) : List String :=
  let style := severityStyle (d.severity.getD defaultSeverity)
  let text := placeText "" ": " d.file d.line ++ screen.paint style (diagnosticLabel d) ++ ": " ++
    d.message
  Text.Wrap.wrap { width := max screen.width leastWidth, indent := "    " } text

def summaryLine (log : DiagnosticLog) : String :=
  toString (log.countSeverity "error" + log.countSeverity "fatal") ++ " error(s), " ++
    toString (log.countSeverity "warning") ++ " warning(s)"

def diagnosticsDocument (context : Path) (log : DiagnosticLog) : Value :=
  .object [("context", pathValue context), ("diagnostics", log.toValue)]

def diagnostics (mode : Mode) (screen : Screen) (context : Path) (log : DiagnosticLog) : String :=
  match mode with
  | .json => document (diagnosticsDocument context log)
  | .text =>
    if log.isEmpty then ofLines ["No diagnostics."]
    else ofLines (log.entries.flatMap (diagnosticLines screen) ++ [summaryLine log])

end PawnQuery.Output
