import PawnQuery.Json.Fault
import PawnQuery.Path.Basic

/-!
# Reading the fields of a document

Small readers for the values that records and descriptors are made of.  Each takes a document
that was read already and either gives the value or says which shape was wanted.
-/

namespace PawnQuery.Report

open PawnQuery.Json

abbrev Shaped (α : Type) := Except ShapeFault α

def refuse (v : Value) (wanted : Wanted) : Shaped α :=
  .error (.wrongType v.found wanted)

def readText : Value → Shaped String
  | .string s => .ok s
  | v => refuse v .text

def readPath : Value → Shaped Path
  | .string s => .ok ⟨s⟩
  | v => refuse v .path

def readUnsigned32 : Value → Shaped Nat
  | .number (.int i) =>
    if 0 ≤ i ∧ i ≤ 0xFFFFFFFF then .ok i.toNat
    else .error (.wrongValue (.number (.int i)) .unsigned32)
  | v => refuse v .unsigned32

/-- A value that may be missing, which is written as null. -/
def readOptional (read : Value → Shaped α) : Value → Shaped (Option α)
  | .null => .ok none
  | v => (read v).map some

/-- A list, item by item; the first item that is refused decides. -/
def readList (read : Value → Shaped α) : Value → Shaped (List α)
  | .array items => items.mapM read
  | v => refuse v .sequence

end PawnQuery.Report
