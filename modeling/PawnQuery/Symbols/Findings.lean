import PawnQuery.Report.Decode
import PawnQuery.Symbols.Table
import PawnQuery.Symbols.DiagnosticLog

/-!
# Findings of a report

Everything that one report says: the completed symbol table, the diagnostics, and the lines that
had to be passed over.  A record of symbols or included files replaces the list it carries; a
diagnostic is added to the log.
-/

namespace PawnQuery.Symbols

open PawnQuery.Report

/-- Everything that one report says. -/
structure Findings where
  symbols : SymbolTable := {}
  diagnostics : DiagnosticLog := {}
  warnings : List Warning := []
deriving DecidableEq, Repr, Inhabited

namespace Findings

def apply (f : Findings) : Record → Findings
  | .diagnostic d => { f with diagnostics := f.diagnostics.push d }
  | .includedFiles files => { f with symbols := f.symbols.setIncludedFiles files }
  | .symbols category list => { f with symbols := f.symbols.setSymbols category list }

def complete (f : Findings) : Findings := { f with symbols := f.symbols.finalize }

def ofReport (report : List Char) : Findings :=
  let decoded := decodeLines report
  (decoded.records.foldl apply { warnings := decoded.warnings }).complete

end Findings

end PawnQuery.Symbols
