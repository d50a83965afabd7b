import PawnQuery.Json.Writer

/-!
# Forms of answers

An answer is written for readers, or as a JSON document for programs.  Either form ends with a line
feed.
-/

namespace PawnQuery.Output

open PawnQuery.Json (Value)

inductive Mode where
  | text
  | json
deriving DecidableEq, Repr, Inhabited

def document (v : Value) : String := v.pretty ++ "\n"

def ofLines (lines : List String) : String := String.join (lines.map fun l => l ++ "\n")

@[simp] theorem ofLines_nil : ofLines [] = "" := rfl

end PawnQuery.Output
