import PawnQuery.Output.Mode
import PawnQuery.Output.Style
import PawnQuery.Symbols.Table
import PawnQuery.Text.Wrap.Basic

/-!
# Listing symbols

The answer that lists the symbols of a context by category.
-/

namespace PawnQuery.Output

open PawnQuery.Json (Value)
open PawnQuery.Report (Category Symbol pathValue)
open PawnQuery.Symbols (SymbolTable)

def leastWidth : Nat := 20

/-- A place in a file, with what stands before and behind it; nothing if the file is not known. -/
def placeText (before after : String) (file : Option Path) (line : Option Nat) : String :=
  match file, line with
  | some file, some line => before ++ file.text ++ ":" ++ toString line ++ after
  | some file, none => before ++ file.text ++ after
  | none, _ => ""

def listedCategories (only : Option Category) : List Category :=
  match only with
  | some c => [c]
  | none => Category.all

def symbolEntry (c : Category) (s : Symbol) : Value :=
  .object (("kind", .string c.name) :: s.members)

def symbolsDocument (context : Path) (table : SymbolTable) (only : Option Category) : Value :=
  .object
    [("context", pathValue context),
      ("symbols", .array ((listedCategories only).flatMap fun c =>
        (table.symbols c).map (symbolEntry c)))]

/-- The lines about a symbol: its description, wrapped, and its place behind the last line. -/
def symbolLines (screen : Screen) (s : Symbol) : List String :=
  let description := if s.detail.isEmpty then s.name else s.detail
  let place := placeText "  " "" s.file s.line
  let lines := Text.Wrap.wrap
    { width := max screen.width leastWidth, firstIndent := "  ", indent := "      " } description
  if place.isEmpty then lines
  else
    lines.dropLast ++ lines.getLast?.toList.map fun l => l ++ screen.paint .dimmed place

def categoryLines (screen : Screen) (table : SymbolTable) (c : Category) : List String :=
  let list := table.symbols c
  if list.isEmpty then []
  else
    let title := c.name ++ " (" ++ toString list.length ++ ")"
    (screen.paint .bold title ++ ":") :: list.flatMap (symbolLines screen)

def symbols (mode : Mode) (screen : Screen) (context : Path) (table : SymbolTable)
    (only : Option Category) : String :=
  match mode with
  | .json => document (symbolsDocument context table only)
  | .text =>
    let lines := (listedCategories only).flatMap (categoryLines screen table)
    ofLines (if lines.isEmpty then ["No symbols found."] else lines)

end PawnQuery.Output
