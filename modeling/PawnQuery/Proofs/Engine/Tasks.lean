import PawnQuery.Proofs.Engine.Change

/-!
# Tasks

A section moves one task on.  It may also begin a task, which then carries an invocation, or wake
those that wait for one; there are five kinds of sections when it comes to tasks.  Numbers of tasks
are given once, so a task that has ended does not come back.
-/

namespace PawnQuery.Engine

/-- The context whose invocation ends with the next section. -/
def Activity.ended? : Activity → Option ContextId
  | .giveUp id | .collect id _ => some id
  | _ => none

def Activity.asked? : Activity → Option ContextId
  | .request id _ _ => some id
  | _ => none

def Next.activity? : Next → Option Activity
  | .ended _ => none
  | .ready a | .parked a => some a

/-- The task does not wait and carries no invocation after the section. -/
def Next.IsPlain : Next → Prop
  | .ended _ => True
  | .ready a => a.invocation? = none
  | .parked _ => False

theorem Next.IsPlain.invocation? {next : Next} (plain : next.IsPlain) :
    next.activity?.bind Activity.invocation? = none := by
  cases next with
  | ended answer => rfl
  | ready a => exact plain
  | parked a => cases plain

/-! ## Kinds of activities exclude each other -/

theorem invocation?_of_ended? {a : Activity} {id : ContextId} (ending : a.ended? = some id) :
    a.invocation? = some id := by
  cases a <;> cases ending <;> rfl

theorem invocation?_of_awaited? {a after : Activity} {id : ContextId}
    (awaits : a.awaited? = some (id, after)) :
    a.invocation? = none ∧ after.invocation? = none := by
  cases a with
  | wait awaited => cases awaits; exact ⟨rfl, rfl⟩
  | search q left =>
    cases left with
    | nil => cases awaits
    | cons w rest =>
      simp only [Activity.awaited?] at awaits
      split at awaits <;> cases awaits
      exact ⟨rfl, rfl⟩
  | _ => cases awaits

theorem ended?_of_invocation? {a : Activity} (plain : a.invocation? = none) :
    a.ended? = none := by
  cases ending : a.ended? with
  | none => rfl
  | some id => rw [invocation?_of_ended? ending] at plain; cases plain

theorem asked?_of_ended? {a : Activity} {id : ContextId} (ending : a.ended? = some id) :
    a.asked? = none := by
  cases a <;> first | rfl | cases ending

theorem asked?_of_awaited? {a after : Activity} {id : ContextId}
    (awaits : a.awaited? = some (id, after)) : a.asked? = none := by
  cases a <;> first | rfl | cases awaits

namespace State

def tasksAt (s : State) (stage : Activity → Option ContextId) (id : ContextId) : List TaskId :=
  (s.tasks.filter fun t => stage t.2 == some id).map (·.1)

/-- The tasks that carry an invocation for a context, from its start to its end. -/
def invocations (s : State) (id : ContextId) : List TaskId :=
  (s.tasks.filter fun t => t.2.invocation? == some id).map (·.1)

def waitersOf (s : State) (id : ContextId) : List TaskId :=
  ((s.registry.context? id).map (·.waiters)).getD []

def isRunning (s : State) (id : ContextId) : Bool :=
  (s.registry.context? id).any (·.inProgress)

/-! ## One task -/

theorem hasTask_eq (s : State) (task : TaskId) : s.hasTask task = (s.activity? task).isSome := by
  rw [hasTask, activity?, Option.isSome_map, Bool.eq_iff_iff, List.any_eq_true, List.find?_isSome]

@[simp] theorem tasks_foldl_wake (s : State) (woken : List TaskId) :
    (woken.foldl wake s).tasks = s.tasks := by
  rw [foldl_wake]

@[simp] theorem taskCount_foldl_wake (s : State) (woken : List TaskId) :
    (woken.foldl wake s).taskCount = s.taskCount := by
  rw [foldl_wake]

theorem queue_foldl_wake (s : State) (woken : List TaskId) :
    (woken.foldl wake s).queue = s.queue ++ woken.filter s.hasTask := by
  rw [foldl_wake]

theorem activity?_congr {s other : State} (same : s.tasks = other.tasks) (task : TaskId) :
    s.activity? task = other.activity? task := by
  unfold activity?
  rw [same]

theorem activity?_begin (s : State) (a : Activity) (task : TaskId) :
    (s.begin a).activity? task =
      (s.activity? task).or (if s.taskCount = task then some a else none) := by
  simp only [begin, activity?, List.find?_append, Option.map_or, List.find?_singleton]
  congr 1
  by_cases this : s.taskCount = task <;> simp [this]

theorem activity?_setActivity (s : State) (task : TaskId) (a : Activity) (other : TaskId) :
    (s.setActivity task a).activity? other =
      if task = other then (s.activity? other).map (fun _ => a) else s.activity? other := by
  have keyed : ((fun t : TaskId × Activity => t.1 == other) ∘
      fun t => if t.1 == task then (task, a) else t) = fun t => t.1 == other := by
    funext t
    by_cases this : t.1 = task <;> simp [this]
  simp only [setActivity, activity?, List.find?_map, keyed, Option.map_map]
  cases found : s.tasks.find? fun t => t.1 == other with
  | none => simp
  | some t =>
    have number : t.1 = other := by simpa using List.find?_some found
    by_cases this : task = other
    · simp [number, this]
    · simp [number, this, Ne.symm this]

theorem activity?_dropTask (s : State) (task other : TaskId) :
    (s.dropTask task).activity? other = if task = other then none else s.activity? other := by
  simp only [dropTask, activity?, List.find?_filter]
  split
  next same => simp [same]
  next differ =>
    congr 2
    funext t
    by_cases this : t.1 = other
    · simp [this, Ne.symm differ]
    · simp [this]

theorem activity?_follow (s : State) (task : TaskId) (next : Next) (other : TaskId) :
    (s.follow task next).activity? other =
      if task = other then (s.activity? other).bind (fun _ => next.activity?)
      else s.activity? other := by
  cases next with
  | ended answer =>
    refine (activity?_dropTask s task other).trans ?_
    split <;> simp [Next.activity?]
  | ready a | parked a =>
    refine (activity?_setActivity s task a other).trans ?_
    split
    · cases s.activity? other <;> rfl
    · rfl

end State

end PawnQuery.Engine
