import PawnQuery.Proofs.Latest
import PawnQuery.Proofs.Report.Decode
import PawnQuery.Symbols.Findings

/-!
# What a report says last

Records are applied one after the other, and each replaces what the ones before it said about the
same list.  So every list of a table is the one in the last record that carries it, whatever other
records stand in between; diagnostics are kept all.  Lines that are no record leave no trace but
their warnings.
-/

namespace PawnQuery

open PawnQuery.Report

/-! ## What a record carries -/

namespace Report.Record

/-- The symbols of a category. -/
def symbols? (c : Category) : Record → Option (List Symbol)
  | .symbols category list => if category = c then some list else none
  | _ => none

def includedFiles? : Record → Option (List IncludedFile)
  | .includedFiles files => some files
  | _ => none

def diagnostic? : Record → Option Diagnostic
  | .diagnostic d => some d
  | _ => none

end Report.Record

namespace Symbols

variable {α : Type}

/-- The list in the last record that carries one; empty if none does. -/
def lastCarried (carried? : Record → Option (List α)) (records : List Record) : List α :=
  (records.filterMap carried?).getLast?.getD []

namespace Findings

/-! ## Records one after the other -/

theorem symbols_apply (c : Category) (f : Findings) (r : Record) :
    (f.apply r).symbols.symbols c = (r.symbols? c).getD (f.symbols.symbols c) := by
  cases r with
  | diagnostic | includedFiles => rfl
  | symbols category list =>
    by_cases same : category = c
    · subst same
      simp [apply, Record.symbols?]
    · simp [apply, Record.symbols?, same, Ne.symm same]

theorem includedFiles_apply (f : Findings) (r : Record) :
    (f.apply r).symbols.includedFiles = r.includedFiles?.getD f.symbols.includedFiles := by
  cases r with
  | diagnostic | includedFiles => rfl
  | symbols category list => exact SymbolTable.includedFiles_setSymbols _ category list

theorem diagnostics_foldl_apply (records : List Record) (f : Findings) :
    (records.foldl apply f).diagnostics.entries =
      f.diagnostics.entries ++ records.filterMap Record.diagnostic? := by
  induction records generalizing f with
  | nil => simp
  | cons r records inductionHypothesis =>
    rw [List.foldl_cons, inductionHypothesis]
    cases r with
    | diagnostic d => simp [apply, Record.diagnostic?]
    | includedFiles | symbols => rfl

/-- Records have no part in the warnings, nor warnings in what the records say. -/
theorem foldl_apply_eq (records : List Record) (f : Findings) (warnings : List Warning) :
    records.foldl apply { f with warnings := warnings } =
      { records.foldl apply f with warnings := warnings } := by
  induction records generalizing f with
  | nil => rfl
  | cons r records inductionHypothesis =>
    rw [List.foldl_cons, List.foldl_cons, ← inductionHypothesis]
    cases r <;> rfl

theorem ofReport_eq (report : List Char) :
    ofReport report =
      { ((decodeLines report).records.foldl apply {}).complete with
        warnings := (decodeLines report).warnings } := by
  have apart := foldl_apply_eq (decodeLines report).records {} (decodeLines report).warnings
  rw [ofReport, apart]
  rfl

theorem complete_eq (c : Category) (s : Symbol) :
    SymbolTable.complete c s =
      { s with detail := if s.detail = "" then describe c s else s.detail } := by
  unfold SymbolTable.complete
  by_cases empty : s.detail = ""
  · simp [empty]
  · simp [empty]

/-! ## Reports -/

theorem symbols_ofReport (report : List Char) (c : Category) :
    (ofReport report).symbols.symbols c =
      (lastCarried (Record.symbols? c) (decodeLines report).records).map
        (SymbolTable.complete c) := by
  have last := view_foldl_apply (fun f : Findings => f.symbols.symbols c) (Record.symbols? c)
    (symbols_apply c) (decodeLines report).records {}
  have nothing : ({} : Findings).symbols.symbols c = [] := by cases c <;> rfl
  rw [ofReport_eq]
  simp only [complete, SymbolTable.symbols_finalize, last, nothing]
  rfl

theorem tables_of_same_records {report other : List Char}
    (same : (decodeLines report).records = (decodeLines other).records) :
    (ofReport report).symbols = (ofReport other).symbols ∧
      (ofReport report).diagnostics = (ofReport other).diagnostics := by
  rw [ofReport_eq, ofReport_eq, same]
  exact ⟨rfl, rfl⟩

/-- A line that is no record can be left out, in the middle of a report or at its end. -/
theorem records_without_line {before line rest : List Char} (single : '\n' ∉ line) {e : LineError}
    (fails : decodeLine (Text.dropReturns line) = .error e)
    (ended : rest = [] ∨ ∃ later, rest = '\n' :: later) :
    (decodeLines (before ++ '\n' :: (line ++ rest))).records =
      (decodeLines (before ++ rest)).records := by
  have nothing := records_of_error single fails
  obtain rfl | ⟨later, rfl⟩ := ended
  · simp [decodeLines_append_newline, nothing]
  · simp [decodeLines_append_newline, nothing]

/-- Every list of symbols is that of the last record of its category, with a description for each
symbol that has none; the included files are those of the last record of them; the diagnostics are
all those reported, in order.  A line that is no record changes none of these. -/
theorem findings_follow_last_records (report : List Char) :
    let found := ofReport report
    let records := (decodeLines report).records
    (∀ c, found.symbols.symbols c =
        (lastCarried (Record.symbols? c) records).map fun s =>
          { s with detail := if s.detail = "" then describe c s else s.detail }) ∧
      found.symbols.includedFiles = lastCarried Record.includedFiles? records ∧
      found.diagnostics.entries = records.filterMap Record.diagnostic? ∧
      found.warnings = (decodeLines report).warnings ∧
      ∀ before line rest e, report = before ++ '\n' :: (line ++ rest) → '\n' ∉ line →
        decodeLine (Text.dropReturns line) = .error e →
        (rest = [] ∨ ∃ later, rest = '\n' :: later) →
        found.symbols = (ofReport (before ++ rest)).symbols ∧
          found.diagnostics = (ofReport (before ++ rest)).diagnostics := by
  intro found records
  have read : found = { (records.foldl apply {}).complete with
      warnings := (decodeLines report).warnings } := ofReport_eq report
  refine ⟨?_, ?_, ?_, ?_, ?_⟩
  · intro c
    exact (symbols_ofReport report c).trans (List.map_congr_left fun s _ => complete_eq c s)
  · rw [read]
    simp only [complete, SymbolTable.includedFiles_finalize]
    exact view_foldl_apply (fun f : Findings => f.symbols.includedFiles) _ includedFiles_apply
      records {}
  · rw [read]
    exact diagnostics_foldl_apply records {}
  · rw [read]
  · rintro before line rest e rfl single fails ended
    exact tables_of_same_records (records_without_line single fails ended)

/-- Functions are reported twice with a line between that was cut off: the second list stands. -/
theorem findings_follow_last_records_cutOff :
    let report (names : String) :=
      ("\x7b\"kind\":\"functions\",\"payload\":[" ++ names ++ "]\x7d").toList
    let before := report "\x7b\"name\":\"a\"\x7d,\x7b\"name\":\"b\"\x7d"
    let line := "\x7b\"kind\":\"functions\",\"payl".toList
    let rest := '\n' :: report "\x7b\"name\":\"c\"\x7d"
    let found := ofReport (before ++ '\n' :: (line ++ rest))
    found.symbols.functions = [{ name := "c", detail := "c()" }] ∧
      found.symbols = (ofReport (before ++ rest)).symbols := by
  intro report before line rest found
  obtain ⟨lists, -, -, -, without⟩ :=
    findings_follow_last_records (before ++ '\n' :: (line ++ rest))
  have refused : (decodeLine (Text.dropReturns line)).toOption = none := by decide +kernel
  cases fails : decodeLine (Text.dropReturns line) with
  | ok r =>
    rw [fails] at refused
    cases refused
  | error e =>
    refine ⟨?_, (without before line rest e rfl (by decide +kernel) fails (.inr ⟨_, rfl⟩)).1⟩
    have last : lastCarried (Record.symbols? .function)
        (decodeLines (before ++ '\n' :: (line ++ rest))).records = [{ name := "c" }] := by
      decide +kernel
    have described : [({ name := "c" } : Symbol)].map (fun s =>
        { s with detail := if s.detail = "" then describe .function s else s.detail }) =
          [{ name := "c", detail := "c()" }] := by decide +kernel
    have list := lists .function
    rw [last, described] at list
    have functions : ∀ t : SymbolTable, t.functions = t.symbols .function := fun _ => rfl
    rw [functions]
    exact list

end Findings

end Symbols

end PawnQuery
