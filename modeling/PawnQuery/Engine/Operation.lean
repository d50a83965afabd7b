import PawnQuery.Engine.Schedule

/-!
# Operations

What can be asked of the program.  An operation that may have to wait becomes a task; the others
take effect at once.
-/

namespace PawnQuery.Engine

open PawnQuery.Compiler (Backend Replay GateId)
open PawnQuery.Workspace (Descriptor)

inductive Operation where
  | create (workspaces : List Descriptor)
  | update (removed : List Path) (added : List Descriptor)
  | shutdown
  | sweep
  | resolve (path : Path)
  | get (path : Path) (create : Bool)
  | remove (path : Path)
  | wait (context : ContextId)
deriving DecidableEq, Repr, Inhabited

def Operation.activity : Operation → Activity
  | .create workspaces => .register workspaces []
  | .update removed added => .detach removed added
  | .shutdown => .clear
  | .sweep => .sweep
  | .resolve path => .resolve path .tell
  | .get path auto => .resolve path (.fetch auto)
  | .remove path => .resolve path .remove
  | .wait context => .wait context

namespace State

def perform (s : State) (o : Operation) : State × TaskId := (s.begin o.activity, s.taskCount)

/-- Begins an invocation for a context, unless one runs or there is nothing to compile. -/
def run (s : State) (id : ContextId) : State :=
  let (after, started) := s.startInvocation id
  started.foldl begin after

/-- Sets the main file of a context; with `reparse` its symbols are gone at once and an invocation
begins. -/
def setMainFile (s : State) (id : ContextId) (file : String) (reparse : Bool) : State :=
  match s.registry.context? id with
  | none => s
  | some c =>
    let after := s.assignMainFile id file reparse
    if c.isWorkspace && reparse then after.run id else after

/-- Drops a task; whoever it waits for does not learn of it. -/
def cancel (s : State) (task : TaskId) : State := s.dropTask task

def script (s : State) (change : Replay → Replay) : State :=
  match s.compiler with
  | .replay r => { s with compiler := .replay (change r) }
  | .program _ => s

def release (s : State) (gate : GateId) : State :=
  let held := s.heldBy gate
  held.foldl wake (s.script fun r => r.release gate)

def answer? (s : State) (task : TaskId) : Option Answer :=
  (s.answers.find? fun a => a.1 == task).map (·.2)

/-- Performs an operation and goes on until nothing can move; gives its answer if it has one. -/
def performAndDrain (s : State) (o : Operation) : State × Option Answer :=
  let (begun, task) := s.perform o
  let rested := begun.drain
  (rested, rested.answer? task)

end State

end PawnQuery.Engine
