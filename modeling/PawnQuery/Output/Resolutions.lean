import PawnQuery.Output.Mode
import PawnQuery.Output.Style
import PawnQuery.Report.Record

/-!
# Owners of files

The answer that tells the owner of each file asked about.
-/

namespace PawnQuery.Output

open PawnQuery.Json (Value)
open PawnQuery.Report (pathValue)

structure Resolution where
  path : Path
  key : Path
deriving DecidableEq, Repr, Inhabited

namespace Resolution

def isStandalone (r : Resolution) : Bool := r.key.same r.path

def toValue (r : Resolution) : Value :=
  .object [("path", pathValue r.path), ("key", pathValue r.key)]

def line (screen : Screen) (r : Resolution) : String :=
  r.path.text ++ " -> " ++ screen.paint .cyan r.key.text ++ " " ++
    if r.isStandalone then screen.paint .dimmed "(standalone)"
    else screen.paint .green "(workspace)"

end Resolution

def resolutions (mode : Mode) (screen : Screen) (list : List Resolution) : String :=
  match mode with
  | .json => document (.array (list.map Resolution.toValue))
  | .text => ofLines (list.map (Resolution.line screen))

end PawnQuery.Output
