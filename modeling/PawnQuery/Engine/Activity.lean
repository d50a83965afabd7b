import PawnQuery.Registry.Basic

/-!
# Activities

What goes on in the background goes on in tasks.  A task moves from one activity to the next; each
activity below is one atomic section, between which any other task may move.  An invocation is
handed to the compiler, collected and told to the listener of its context.  Whoever asks for the
owner of a path looks at the entry points of the open workspaces first, then waits for one
workspace after the other to look at the files it includes.
-/

namespace PawnQuery.Engine

open PawnQuery.Compiler (Invocation Reply)
open PawnQuery.Registry (Candidate Assignment)
open PawnQuery.Workspace (Descriptor)

abbrev TaskId := Nat

/-- What becomes of a path once its owner is known. -/
inductive Goal where
  | tell
  | fetch (create : Bool)
  | remove
  /-- The path's own context is dropped if a workspace owns it; then the sweep goes on. -/
  | sweep (rest : List Path)
deriving DecidableEq, Repr, Inhabited

/-- A search for the owner of a path among the workspaces that were open when it began. -/
structure Query where
  path : Path
  goal : Goal
  workspaces : List Candidate := []
deriving DecidableEq, Repr, Inhabited

/-- The next section of a task. -/
inductive Activity where
  | launch (context : ContextId) (invocation : Invocation)
  /-- Ends an invocation that the compiler refused. -/
  | giveUp (context : ContextId)
  | collect (context : ContextId) (reply : Reply)
  | tell (context : ContextId)
  | register (todo : List Descriptor) (made : List Assignment)
  /-- Closes workspaces, then opens others. -/
  | detach (removed : List Path) (added : List Descriptor)
  | enroll (added : List Descriptor)
  /-- Sets main files; then the other workspaces are opened. -/
  | assign (assignments : List Assignment) (added : List Descriptor)
  /-- Begins an invocation for a main file just set. -/
  | request (context : ContextId) (assignments : List Assignment) (added : List Descriptor)
  | clear
  | wait (context : ContextId)
  /-- Has been released. -/
  | leave
  | resolve (path : Path) (goal : Goal)
  /-- Looks at the entry points of one workspace after the other. -/
  | enter (query : Query) (left : List Candidate)
  /-- Waits for the workspaces around the path, one after the other. -/
  | search (query : Query) (left : List Candidate)
  | inspect (query : Query) (candidate : Candidate) (left : List Candidate)
  | settle (path : Path) (goal : Goal) (owner : Path)
  | sweep
deriving DecidableEq, Repr, Inhabited

inductive Answer where
  | done
  | owner (key : Path)
  | context (found : Option ContextId)
deriving DecidableEq, Repr, Inhabited

namespace Activity

/-- The main files that a task has still to set, those of workspaces not yet open included. -/
def pendingAssignments : Activity → Nat
  | .register todo made => todo.length + made.length
  | .detach _ added => added.length
  | .enroll added => added.length
  | .assign assignments added => assignments.length + added.length
  | .request _ assignments added => assignments.length + added.length + 1
  | _ => 0

def pendingWorkspaces : Activity → Nat
  | .enter q _ | .search q _ | .inspect q _ _ => q.workspaces.length
  | _ => 0

/-- The contexts that a sweep has still to look at. -/
def pendingKeys : Activity → Nat
  | .resolve _ (.sweep rest) => rest.length + 1
  | .enter q _ | .search q _ | .inspect q _ _ =>
    match q.goal with
    | .sweep rest => rest.length + 1
    | _ => 0
  | .settle _ (.sweep rest) _ => rest.length + 1
  | _ => 0

end Activity

end PawnQuery.Engine
