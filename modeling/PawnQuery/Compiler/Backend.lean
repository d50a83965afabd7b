import PawnQuery.Compiler.Program
import PawnQuery.Compiler.Replay

/-!
# What answers invocations

Either a program that is started for each invocation, or recordings that are replayed.
-/

namespace PawnQuery.Compiler

open PawnQuery.Files (FileTree)

inductive Backend where
  | program (executable : Path)
  | replay (state : Replay)
deriving DecidableEq, Repr, Inhabited

namespace Backend

/-- The program `executable` in a directory; without a directory it is searched for. -/
def ofDirectory (directory : Path) (executable : String) : Backend :=
  .program (directory.joinText executable)

def spawn (b : Backend) (files : FileTree) (i : Invocation) :
    Backend × Except SpawnFault Reply :=
  match b with
  | .program executable => (b, Program.spawn files executable i)
  | .replay state =>
    let (state, outcome) := state.spawn i
    (.replay state, outcome)

/-- A gate does not hold anything back. -/
def isOpen (b : Backend) (gate : Option GateId) : Bool :=
  match b with
  | .program _ => true
  | .replay state => state.isOpen gate

def describe : Backend → String
  | .program executable => executable.text
  | .replay _ => "replay"

end Backend

end PawnQuery.Compiler
