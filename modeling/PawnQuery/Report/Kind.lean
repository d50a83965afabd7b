/-!
# Kinds of report records

The compiler reports one record a line, each of one of eight kinds.  Six kinds carry declared
symbols, one category each; the two others carry a diagnostic and the list of included files.
-/

namespace PawnQuery.Report

/-- The categories of declared symbols, in the order of a symbol table. -/
inductive Category where
  | constant
  | tag
  | enumerator
  | variable
  | function
  | substitute
deriving DecidableEq, Repr, Inhabited

namespace Category

def all : List Category := [.constant, .tag, .enumerator, .variable, .function, .substitute]

def name : Category → String
  | .constant => "constant"
  | .tag => "tag"
  | .enumerator => "enumerator"
  | .variable => "variable"
  | .function => "function"
  | .substitute => "substitute"

def plural : Category → String
  | .constant => "constants"
  | .tag => "tags"
  | .enumerator => "enumerators"
  | .variable => "variables"
  | .function => "functions"
  | .substitute => "substitutes"

def ofName? (name : String) : Option Category :=
  all.find? fun c => c.name == name

@[simp] theorem mem_all (c : Category) : c ∈ all := by
  cases c <;> decide

@[simp] theorem ofName?_name (c : Category) : ofName? c.name = some c := by
  cases c <;> decide

end Category

inductive Kind where
  | diagnostic
  | includedFiles
  | symbols (category : Category)
deriving DecidableEq, Repr, Inhabited

namespace Kind

/-- All kinds in the order in which the compiler usually reports them. -/
def all : List Kind := .diagnostic :: .includedFiles :: Category.all.map .symbols

def name : Kind → String
  | .diagnostic => "diagnostic"
  | .includedFiles => "includedFiles"
  | .symbols category => category.plural

def ofName? (name : String) : Option Kind :=
  all.find? fun k => k.name == name

def index (k : Kind) : Nat := all.idxOf k

@[simp] theorem mem_all (k : Kind) : k ∈ all := by
  rcases k with _ | _ | c
  · decide
  · decide
  · cases c <;> decide

@[simp] theorem ofName?_name (k : Kind) : ofName? k.name = some k := by
  rcases k with _ | _ | c
  · decide
  · decide
  · cases c <;> decide

end Kind

end PawnQuery.Report
