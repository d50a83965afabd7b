import PawnQuery.Report.Record
import PawnQuery.Json.Writer

/-!
# Descriptions of symbols

A symbol is described on one line, in the manner of its declaration.  A tag is shown in front of a
name unless it is empty or the default tag.
-/

namespace PawnQuery.Symbols

open PawnQuery.Report
open PawnQuery.Json (Value)

/-- The tag that every value has unless it is given another one. -/
def defaultTag : String := "_"

def tagged (tag : Option String) (name : String) : String :=
  match tag with
  | some tag => if tag.isEmpty || tag == defaultTag then name else tag ++ ":" ++ name
  | none => name

/-- A value inside a description: a string as it is, anything else as JSON. -/
def valueText : Value → String
  | .string s => s
  | v => v.render

def describe (category : Category) (s : Symbol) : String :=
  match category with
  | .function =>
    tagged s.tag s.name ++ "(" ++
      ", ".intercalate (s.parameters.map fun p => tagged p.tag p.name) ++ ")"
  | .constant =>
    "const " ++ tagged s.tag s.name ++
      (match s.value with
       | some v => " = " ++ valueText v
       | none => "")
  | .substitute =>
    "#define " ++ s.name ++
      (match s.value with
       | some v => " " ++ valueText v
       | none => "")
  | .tag => s.name ++ ":"
  | .enumerator => tagged s.tag s.name
  | .variable => tagged s.tag s.name

end PawnQuery.Symbols
