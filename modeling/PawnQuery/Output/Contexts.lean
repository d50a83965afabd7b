import PawnQuery.Context.Basic
import PawnQuery.Output.Mode
import PawnQuery.Output.Style

/-!
# Listing contexts

The answer that lists the registered contexts.
-/

namespace PawnQuery.Output

open PawnQuery.Json (Value)
open PawnQuery.Context (Status)

def statusLines (screen : Screen) (s : Status) : List String :=
  let scope :=
    if s.isWorkspace then screen.paint .green "workspace" else screen.paint .dimmed "standalone"
  [screen.paint .boldCyan s.root.text ++ " [" ++ scope ++ "]"] ++
    s.mainFile.toList.map (fun file => "  main file:   " ++ file) ++
    ["  runs:        " ++ toString s.completedRuns ++ if s.inProgress then " (running)" else ""] ++
    s.lastCompleted.toList.map (fun t => "  last parsed: " ++ t.display) ++
    ["  symbols:     " ++ toString s.symbols ++ ", diagnostics: " ++ toString s.diagnostics]

def contexts (mode : Mode) (screen : Screen) (list : List Status) : String :=
  match mode with
  | .json => document (.array (list.map Status.toValue))
  | .text =>
    if list.isEmpty then ofLines ["No contexts."] else ofLines (list.flatMap (statusLines screen))

end PawnQuery.Output
