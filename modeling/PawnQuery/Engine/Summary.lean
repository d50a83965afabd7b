import PawnQuery.Compiler.Backend
import PawnQuery.Registry.Basic
import PawnQuery.Text.Quoted

/-!
# Summaries

One-line texts of contexts, registries and replies for logs.  A summary shows the members that
tell one value from another and says that there are more.
-/

namespace PawnQuery.Engine

open PawnQuery.Compiler (Backend)
open PawnQuery.Text (Quoting)

abbrev Detail := String × String

/-- A summary: a title and some of the members. -/
def summarize (title : String) (details : List Detail) : String :=
  title ++ " \x7b " ++ String.join (details.map fun d => d.1 ++ ": " ++ d.2 ++ ", ") ++ ".. \x7d"

def boolText (b : Bool) : String := if b then "true" else "false"

def contextSummary (c : Context) (compiler : Backend) : String :=
  summarize "ParserContext"
    [("root_path", Quoting.strict.quote c.root.text),
      ("workspace_scoped", boolText c.isWorkspace),
      ("oracle", Quoting.plain.quote compiler.describe)]

def registrySummary (r : Registry) (compiler : Backend) : String :=
  summarize "ParserRegistry"
    [("oracle", Quoting.plain.quote compiler.describe),
      ("workspace_support", boolText r.workspaceSupport)]

def replySummary : String := summarize "OracleProcess" []

end PawnQuery.Engine
