import PawnQuery.Symbols.Description

/-!
# Symbol tables

The declarations of one compiled script, grouped by category, and the files it includes.  A list
is replaced as a whole; completing the table describes every symbol that has no description yet.
-/

namespace PawnQuery.Symbols

open PawnQuery.Report
open PawnQuery.Json (Value Member)

structure SymbolTable where
  includedFiles : List IncludedFile := []
  constants : List Symbol := []
  tags : List Symbol := []
  enumerators : List Symbol := []
  globals : List Symbol := []
  functions : List Symbol := []
  substitutes : List Symbol := []
deriving DecidableEq, Repr, Inhabited

namespace SymbolTable

def symbols (t : SymbolTable) : Category → List Symbol
  | .constant => t.constants
  | .tag => t.tags
  | .enumerator => t.enumerators
  | .variable => t.globals
  | .function => t.functions
  | .substitute => t.substitutes

def setSymbols (t : SymbolTable) (category : Category) (list : List Symbol) : SymbolTable :=
  match category with
  | .constant => { t with constants := list }
  | .tag => { t with tags := list }
  | .enumerator => { t with enumerators := list }
  | .variable => { t with globals := list }
  | .function => { t with functions := list }
  | .substitute => { t with substitutes := list }

def setIncludedFiles (t : SymbolTable) (files : List IncludedFile) : SymbolTable :=
  { t with includedFiles := files }

@[simp] theorem symbols_setSymbols_self (t : SymbolTable) (c : Category) (list : List Symbol) :
    (t.setSymbols c list).symbols c = list := by
  cases c <;> rfl

@[simp] theorem symbols_setSymbols_of_ne (t : SymbolTable) {c d : Category} (h : d ≠ c)
    (list : List Symbol) : (t.setSymbols c list).symbols d = t.symbols d := by
  cases c <;> cases d <;> first | rfl | exact absurd rfl h

@[simp] theorem includedFiles_setSymbols (t : SymbolTable) (c : Category) (list : List Symbol) :
    (t.setSymbols c list).includedFiles = t.includedFiles := by
  cases c <;> rfl

@[simp] theorem symbols_setIncludedFiles (t : SymbolTable) (files : List IncludedFile)
    (c : Category) : (t.setIncludedFiles files).symbols c = t.symbols c := by
  cases c <;> rfl

@[simp] theorem includedFiles_setIncludedFiles (t : SymbolTable) (files : List IncludedFile) :
    (t.setIncludedFiles files).includedFiles = files := rfl

/-! ## Views -/

/-- Every symbol with its category, category by category. -/
def entries (t : SymbolTable) : List (Category × Symbol) :=
  Category.all.flatMap fun c => (t.symbols c).map fun s => (c, s)

def length (t : SymbolTable) : Nat :=
  Category.all.foldl (fun count c => count + (t.symbols c).length) 0

def isEmpty (t : SymbolTable) : Bool := t.includedFiles.isEmpty && t.length == 0

/-- The first symbol called `name`, with its category. -/
def find? (t : SymbolTable) (name : String) : Option (Category × Symbol) :=
  t.entries.find? fun entry => entry.2.name == name

def includes (t : SymbolTable) (path : Path) : Bool :=
  t.includedFiles.any fun f => f.path.same path

/-! ## Completion -/

/-- The symbol with a description, its own if it has one. -/
def complete (c : Category) (s : Symbol) : Symbol :=
  if s.detail.isEmpty then { s with detail := describe c s } else s

def completeCategory (t : SymbolTable) (c : Category) : SymbolTable :=
  t.setSymbols c ((t.symbols c).map (complete c))

def finalize (t : SymbolTable) : SymbolTable :=
  Category.all.foldl completeCategory t

theorem complete_of_detail {c : Category} {s : Symbol} (h : s.detail.isEmpty = false) :
    complete c s = s := by
  simp [complete, h]

@[simp] theorem symbols_finalize (t : SymbolTable) (c : Category) :
    t.finalize.symbols c = (t.symbols c).map (complete c) := by
  cases c <;> rfl

@[simp] theorem includedFiles_finalize (t : SymbolTable) :
    t.finalize.includedFiles = t.includedFiles := rfl

/-! ## Writing -/

/-- The members of a table: the included files, then the categories in order. -/
def members (t : SymbolTable) : List Member :=
  ("includedFiles", .array (t.includedFiles.map IncludedFile.toValue)) ::
    Category.all.map fun c => (c.plural, .array ((t.symbols c).map Symbol.toValue))

def toValue (t : SymbolTable) : Value := .object t.members

end SymbolTable

end PawnQuery.Symbols
