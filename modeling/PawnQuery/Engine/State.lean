import PawnQuery.Compiler.Backend
import PawnQuery.Engine.Activity

/-!
# States

A state is everything that a later answer can show: the registry, the compiler, the files, and the
tasks with the activity each has come to.  The tasks that can move are queued; a task that waits
for an invocation, or whose invocation is held back behind a gate, is not.
-/

namespace PawnQuery.Engine

open PawnQuery.Compiler (Backend GateId)
open PawnQuery.Context (Timestamp)
open PawnQuery.Files (FileTree)

/-- The program between two sections. -/
structure State where
  registry : Registry := {}
  compiler : Backend := .replay {}
  files : FileTree := {}
  now : Timestamp := ⟨0, 0⟩
  /-- The tasks that have not ended, in the order in which they began. -/
  tasks : List (TaskId × Activity) := []
  taskCount : Nat := 0
  /-- The tasks that can move, first come first. -/
  queue : List TaskId := []
  answers : List (TaskId × Answer) := []
  /-- The roots told to a recorder, in order. -/
  notified : List Path := []
deriving DecidableEq, Repr, Inhabited

namespace State

def activity? (s : State) (id : TaskId) : Option Activity :=
  (s.tasks.find? fun t => t.1 == id).map (·.2)

def hasTask (s : State) (id : TaskId) : Bool := s.tasks.any fun t => t.1 == id

def begin (s : State) (a : Activity) : State :=
  { s with
    tasks := s.tasks ++ [(s.taskCount, a)]
    taskCount := s.taskCount + 1
    queue := s.queue ++ [s.taskCount] }

/-- Lets a task move again; one that was dropped meanwhile stays dropped. -/
def wake (s : State) (id : TaskId) : State :=
  if s.hasTask id then { s with queue := s.queue ++ [id] } else s

def setActivity (s : State) (id : TaskId) (a : Activity) : State :=
  { s with tasks := s.tasks.map fun t => if t.1 == id then (id, a) else t }

def park (s : State) (id : TaskId) : State := { s with queue := s.queue.erase id }

/-- Drops a task without an answer. -/
def dropTask (s : State) (id : TaskId) : State :=
  { s with tasks := s.tasks.filter (fun t => t.1 != id), queue := s.queue.erase id }

def finish (s : State) (id : TaskId) (answer : Answer) : State :=
  { s.dropTask id with answers := s.answers ++ [(id, answer)] }

def isHeldBy (gate : GateId) : Activity → Bool
  | .collect _ reply => reply.gate == some gate
  | _ => false

/-- The tasks held back behind a gate, in the order in which they began. -/
def heldBy (s : State) (gate : GateId) : List TaskId :=
  (s.tasks.filter fun t => isHeldBy gate t.2 && !s.queue.contains t.1).map (·.1)

@[simp] theorem registry_begin (s : State) (a : Activity) : (s.begin a).registry = s.registry := rfl

@[simp] theorem registry_wake (s : State) (id : TaskId) : (s.wake id).registry = s.registry := by
  unfold wake; split <;> rfl

@[simp] theorem registry_finish (s : State) (id : TaskId) (answer : Answer) :
    (s.finish id answer).registry = s.registry := rfl

end State

end PawnQuery.Engine
