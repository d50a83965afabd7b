import PawnQuery.Config.Reader
import PawnQuery.Report.Shape

/-!
# Configurations in JSON

The form in which another program hands over a configuration.  A record may also be a list of its
members in their order, of which the last may be missing.
-/

namespace PawnQuery.Config

open PawnQuery.Json (Value ShapeFault)
open PawnQuery.Report (refuse readText readPath)

def readBoolean : Value → Except ShapeFault Bool
  | .bool b => .ok b
  | v => refuse v .boolean

def readSize : Value → Except ShapeFault Nat
  | .number (.int i) =>
    if 0 ≤ i then .ok i.toNat else .error (.wrongValue (.number (.int i)) .size)
  | v => refuse v .size

def readItems : Value → Except ShapeFault (List Value)
  | .array items => .ok items
  | v => refuse v .sequence

/-- The members of a record: those of an object, or the items of a list by their places. -/
def readRecord (title : String) (names : List String) :
    Value → Except ShapeFault (Members Value ShapeFault)
  | .object members => .ok { given := members, missing := .missingMember }
  | .array items =>
    .ok
      { given := names.zip items
        missing := fun _ => .tooShort items.length title names.length
        surplus := if names.length < items.length then some (.tooLong items.length) else none }
  | v => refuse v (.record title)

def jsonForm : Form Value ShapeFault where
  text := readText
  path := readPath
  boolean := readBoolean
  size := readSize
  items := readItems
  isAbsent v := .ok (v == .null)
  record := readRecord

def ofValue (v : Value) : Except ShapeFault Config := jsonForm.config v

def descriptorOfValue (v : Value) : Except ShapeFault Workspace.Descriptor := jsonForm.descriptor v

end PawnQuery.Config
