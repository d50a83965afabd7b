import PawnQuery.Engine.Section

/-!
# Schedules

Any task in the queue may move next.  One way to go on is to let the first task move until it ends
or has to wait, then the next one, until nothing can move any more.  The number of sections that
this takes is bounded: every task has only so many main files to set and contexts to look at, and
an invocation leads to one sweep at most.
-/

namespace PawnQuery.Engine

namespace State

/-- One task that can move does so. -/
inductive Moves : State → State → Prop where
  | advance {s : State} {task : TaskId} (ready : task ∈ s.queue) : Moves s (s.advance task)

def atRest (s : State) : Prop := s.queue = []

instance (s : State) : Decidable s.atRest := inferInstanceAs (Decidable (s.queue = []))

/-! ## First come, first served -/

/-- A bound of the sections still to come. -/
def workLeft (s : State) : Nat :=
  let total (work : Activity → Nat) : Nat := s.tasks.foldl (fun sum t => sum + work t.2) 0
  let assignments := total Activity.pendingAssignments
  let workspaces := s.registry.workspaces.size + assignments +
    total Activity.pendingWorkspaces
  let contexts := s.registry.registered.size + assignments + s.tasks.length +
    total Activity.pendingKeys
  let search := 4 * workspaces + 8
  let sweep := (contexts + 1) * search + 8
  let invocation := sweep + 8
  (s.tasks.length + assignments + 1) * (2 * invocation + 8)

/-- Lets the first of the queue move, at most `fuel` times. -/
def drainWithin : Nat → State → State
  | 0, s => s
  | fuel + 1, s =>
    match s.queue with
    | [] => s
    | task :: _ => drainWithin fuel (s.advance task)

/-- Goes on until nothing can move. -/
def drain (s : State) : State := drainWithin s.workLeft s

theorem moves_of_queue_eq_cons {s : State} {task : TaskId} {rest : List TaskId}
    (h : s.queue = task :: rest) : Moves s (s.advance task) :=
  .advance (by simp [h])

end State

end PawnQuery.Engine
