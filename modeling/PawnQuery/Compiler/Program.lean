import PawnQuery.Compiler.Replay
import PawnQuery.Compiler.Script.Run

/-!
# Starting a program

A program is started in the directory of the invocation, from which its own path is seen too.  It
must be a file that may be executed and that names a known interpreter in its first line.  A
missing directory, program or interpreter all count as a missing compiler.
-/

namespace PawnQuery.Compiler.Program

open PawnQuery.Files (FileTree FileFault)
open PawnQuery.Report (ByteStream)

/-- The directories in which programs without a directory are searched for. -/
def searchPath : List Path := [⟨"/usr/local/bin"⟩, ⟨"/usr/bin"⟩, ⟨"/bin"⟩]

def interpreters : List String := ["/bin/sh", "/usr/bin/sh", "/bin/bash", "/usr/bin/bash",
  "/bin/dash", "/usr/bin/dash"]

def finder : String := "/usr/bin/env"

def interpreterNames : List String := ["sh", "bash", "dash"]

/-- The words of the first line if it names an interpreter. -/
def interpreterLine? (text : String) : Option (List String) :=
  match text.toList with
  | '#' :: '!' :: rest =>
    some (Script.State.splitBlanks (String.ofList (rest.takeWhile (· != '\n'))))
  | _ => none

def isKnown : List String → Bool
  | program :: more =>
    interpreters.contains program ||
      program == finder && more.head?.any interpreterNames.contains
  | [] => false

def findProgram (files : FileTree) (executable : Path) : Except FileFault Path :=
  if executable.text.toList.contains '/' then .ok executable
  else if executable.isEmpty then .error .notFound
  else
    match (searchPath.map fun d => d.join executable).find? files.isFile with
    | some found => .ok found
    | none => .error .notFound

/-- The text of the script to run and the files it sees, or why the program cannot be started. -/
def prepare (files : FileTree) (executable : Path) (i : Invocation) :
    Except FileFault (String × FileTree) := do
  let location ← files.locate i.workingDirectory
  match files.entry? location with
  | some .directory => pure ()
  | _ => throw .notADirectory
  let directory := "/" ++ "/".intercalate location
  let inside : FileTree := { files with workingDirectory := ⟨directory⟩ }
  let program ← findProgram inside executable
  match ← inside.lookup program with
  | .directory => throw .permissionDenied
  | .file text executable =>
    if !executable then throw .permissionDenied
    match interpreterLine? text with
    | none => throw .notAProgram
    | some line => if isKnown line then return (text, inside) else throw .notFound

def replyOf (s : Script.State) : Reply :=
  { output := ⟨[s.output], .closed⟩
    diagnostics := ⟨[s.diagnostics], .closed⟩
    exitCode :=
      match s.result with
      | .exit code => some code
      | .killed => none }

def spawn (files : FileTree) (executable : Path) (i : Invocation) : Except SpawnFault Reply :=
  match prepare files executable i with
  | .error .notFound => .error (.notFound executable.text installHint)
  | .error reason => .error (.spawnFailed executable.text reason)
  | .ok (text, inside) => .ok (replyOf (Script.execute text executable.text inside i.arguments))

end PawnQuery.Compiler.Program
