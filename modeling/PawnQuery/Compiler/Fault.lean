import PawnQuery.Files.Fault

/-!
# Failures to start the compiler
-/

namespace PawnQuery.Compiler

open PawnQuery.Files (FileFault)

inductive StreamName where
  | output
  | diagnostics
deriving DecidableEq, Repr

def StreamName.text : StreamName → String
  | .output => "stdout"
  | .diagnostics => "stderr"

inductive SpawnFault where
  | spawnFailed (command : String) (reason : FileFault)
  | notFound (command : String) (hint : String)
  | missingStream (stream : StreamName)
  | unavailable (reason : String)
deriving DecidableEq, Repr, Inhabited

def installHint : String :=
  "Install the Pawn compiler and point compiler.path in pawn-parser.yaml at the directory " ++
    "containing it."

namespace SpawnFault

def message : SpawnFault → String
  | .spawnFailed command reason =>
    "failed to spawn compiler '" ++ command ++ "': " ++ reason.message
  | .notFound command hint => command ++ " not found\n\n" ++ hint
  | .missingStream stream => "compiler " ++ stream.text ++ " was not captured"
  | .unavailable reason => "compiler unavailable: " ++ reason

def reason? : SpawnFault → Option FileFault
  | .spawnFailed _ reason => some reason
  | _ => none

end SpawnFault

end PawnQuery.Compiler
