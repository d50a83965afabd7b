import PawnQuery.Proofs.Registry.Owner

/-!
# The course of a task

The activities of a task follow on each other in fixed ways, and a task comes to an activity in one
of four: it was there before, its own section has led it there, an operation has just been asked
for, or an invocation has just begun.  What every task of a run has in common is shown by going
through the four.
-/

namespace PawnQuery.Engine.State

open PawnQuery.Compiler (Backend Invocation Reply SpawnFault)
open PawnQuery.Registry (Candidate Assignment)
open PawnQuery.Workspace (Descriptor)

/-! ## One task -/

/-- How the activities of a task follow on each other, and what the registry and the compiler say
where they decide how the task goes on. -/
inductive Follows (s : State) : Activity → Activity → Prop where
  | refused {id : ContextId} {invocation : Invocation} {compiler : Backend} {fault : SpawnFault}
      (spawned : s.compiler.spawn s.files invocation = (compiler, .error fault)) :
      Follows s (.launch id invocation) (.giveUp id)
  | answered {id : ContextId} {invocation : Invocation} {compiler : Backend} {reply : Reply}
      (spawned : s.compiler.spawn s.files invocation = (compiler, .ok reply)) :
      Follows s (.launch id invocation) (.collect id reply)
  | published {id : ContextId} {reply : Reply} : Follows s (.collect id reply) (.tell id)
  | told {id : ContextId} {c : Context} (found : s.registry.context? id = some c)
      (workspace : c.isWorkspace = true) (listens : c.listener = .registry) :
      Follows s (.tell id) .sweep
  | registers {d : Descriptor} {todo : List Descriptor} {made : List Assignment} :
      Follows s (.register (d :: todo) made)
        (.register todo (made ++ [(s.registry.register d s.files).2]))
  | registered {made : List Assignment} : Follows s (.register [] made) (.assign made [])
  | detached {removed : List Path} {added : List Descriptor} :
      Follows s (.detach removed added) (.enroll added)
  | enrolls {d : Descriptor} {added : List Descriptor} :
      Follows s (.enroll (d :: added)) (.assign [(s.registry.register d s.files).2] added)
  | assigns {a : Assignment} {rest : List Assignment} {added : List Descriptor} :
      Follows s (.assign (a :: rest) added) (.request a.context rest added)
  | assigned {added : List Descriptor} : Follows s (.assign [] added) (.enroll added)
  | requests {id : ContextId} {rest : List Assignment} {added : List Descriptor} :
      Follows s (.request id rest added) (.assign rest added)
  | waits {id : ContextId} : Follows s (.wait id) .leave
  | opens {path : Path} {goal : Goal} (support : s.registry.workspaceSupport = true) :
      Follows s (.resolve path goal)
        (.enter ⟨path, goal, s.registry.candidates⟩ s.registry.candidates)
  | alone {path : Path} {goal : Goal} (support : s.registry.workspaceSupport = false) :
      Follows s (.resolve path goal) (.settle path goal path)
  | enters {q : Query} {w : Candidate} {left : List Candidate}
      (entered : s.registry.enters q.path w = true) :
      Follows s (.enter q (w :: left)) (.settle q.path q.goal w.root)
  | passes {q : Query} {w : Candidate} {left : List Candidate}
      (passed : s.registry.enters q.path w = false) :
      Follows s (.enter q (w :: left)) (.enter q left)
  | searches {q : Query} : Follows s (.enter q []) (.search q q.workspaces)
  | awaits {q : Query} {w : Candidate} {left : List Candidate}
      (around : q.path.startsWith w.root = true) :
      Follows s (.search q (w :: left)) (.inspect q w left)
  | skips {q : Query} {w : Candidate} {left : List Candidate}
      (elsewhere : q.path.startsWith w.root = false) :
      Follows s (.search q (w :: left)) (.search q left)
  | unowned {q : Query} : Follows s (.search q []) (.settle q.path q.goal q.path)
  | includes {q : Query} {w : Candidate} {left : List Candidate}
      (included : s.registry.knows q.path w = true) :
      Follows s (.inspect q w left) (.settle q.path q.goal w.root)
  | lacks {q : Query} {w : Candidate} {left : List Candidate}
      (missing : s.registry.knows q.path w = false) :
      Follows s (.inspect q w left) (.search q left)
  | sweeps {key : Path} {rest : List Path} (keys : s.registry.sweepKeys = key :: rest) :
      Follows s .sweep (.resolve key (.sweep rest))
  | swept {path owner key : Path} {rest : List Path} :
      Follows s (.settle path (.sweep (key :: rest)) owner) (.resolve key (.sweep rest))

theorem next_publish (s : State) (id : ContextId) (reply : Option Reply) (next : Next) :
    (s.publish id reply next).next = next := by
  unfold publish
  split <;> rfl

theorem activity?_nextAfterCall (s : State) (id : ContextId) (after : Activity) :
    (s.nextAfterCall id after).activity? = some after := by
  unfold nextAfterCall
  split <;> rfl

theorem follows_turn {s : State} {task : TaskId} {a b : Activity}
    (goes : (s.turn task a).next.activity? = some b) : s.Follows a b := by
  cases a with
  | launch id invocation =>
    cases spawned : s.compiler.spawn s.files invocation with
    | mk compiler outcome =>
      cases outcome with
      | error fault =>
        simp only [turn, launch, spawned, Next.activity?, Option.some.injEq] at goes
        cases goes
        exact .refused spawned
      | ok reply =>
        simp only [turn, launch, spawned] at goes
        split at goes <;> cases goes <;> exact .answered spawned
  | giveUp id =>
    rw [turn, next_publish] at goes
    cases goes
  | collect id reply =>
    rw [turn, next_publish] at goes
    cases goes
    exact .published
  | tell id =>
    simp only [turn, tell] at goes
    cases found : s.registry.context? id with
    | none => rw [found] at goes; cases goes
    | some c =>
      rw [found] at goes
      simp only at goes
      split at goes
      next workspace =>
        cases listens : c.listener with
        | registry => rw [listens] at goes; cases goes; exact .told found workspace listens
        | nobody | recorder => rw [listens] at goes; cases goes
      next => cases goes
  | register todo made =>
    cases todo with
    | nil => cases goes; exact .registered
    | cons d rest => cases goes; exact .registers
  | detach removed added => cases goes; exact .detached
  | enroll added =>
    cases added with
    | nil => cases goes
    | cons d rest => cases goes; exact .enrolls
  | assign assignments added =>
    cases assignments with
    | nil => cases goes; exact .assigned
    | cons a rest => cases goes; exact .assigns
  | request id rest added => cases goes; exact .requests
  | clear | leave => cases goes
  | wait id =>
    have awaits : (Activity.wait id).awaited? = some (id, .leave) := rfl
    rw [(turn_of_awaited? s task awaits).1, activity?_nextAfterCall] at goes
    cases goes
    exact .waits
  | resolve path goal =>
    simp only [turn, resolveOwner] at goes
    split at goes
    next support => cases goes; exact .opens support
    next support => cases goes; exact .alone (eq_false_of_ne_true support)
  | enter q left =>
    cases left with
    | nil => cases goes; exact .searches
    | cons w rest =>
      simp only [turn, enterNext] at goes
      split at goes
      next entered => cases goes; exact .enters entered
      next passed => cases goes; exact .passes (eq_false_of_ne_true passed)
  | search q left =>
    cases left with
    | nil => cases goes; exact .unowned
    | cons w rest =>
      by_cases around : q.path.startsWith w.root = true
      · have awaits : (Activity.search q (w :: rest)).awaited? =
            some (w.context, .inspect q w rest) := if_pos around
        rw [(turn_of_awaited? s task awaits).1, activity?_nextAfterCall] at goes
        cases goes
        exact .awaits around
      · simp only [turn, searchNext, if_neg around] at goes
        cases goes
        exact .skips (eq_false_of_ne_true around)
  | inspect q w left =>
    simp only [turn, inspectNext] at goes
    split at goes
    next included => cases goes; exact .includes included
    next missing => cases goes; exact .lacks (eq_false_of_ne_true missing)
  | settle path goal owner =>
    cases goal with
    | tell | fetch _ | remove => cases goes
    | sweep rest =>
      cases rest with
      | nil => cases goes
      | cons key rest => cases goes; exact .swept
  | sweep =>
    simp only [turn] at goes
    cases keys : s.registry.sweepKeys with
    | nil => rw [keys] at goes; cases goes
    | cons key rest => rw [keys] at goes; cases goes; exact .sweeps keys

/-! ## All tasks together -/

/-- How a task has come to its activity with an event. -/
inductive Course (s : State) : Event → TaskId → Activity → Prop where
  | stays {e : Event} {task : TaskId} {b : Activity} (elsewhere : e ≠ .advance task)
      (activity : s.activity? task = some b) : Course s e task b
  | moves {task : TaskId} {a b : Activity} (activity : s.activity? task = some a)
      (goes : (s.turn task a).next.activity? = some b) : Course s (.advance task) task b
  | performs {operation : Operation} :
      Course s (.perform operation) s.taskCount operation.activity
  | begins {e : Event} {id : ContextId} {invocation : Compiler.Invocation}
      (begins : begunBy id s e = [s.taskCount]) :
      Course s e s.taskCount (.launch id invocation)

/-! ### New tasks -/

/-- Only a request for an invocation begins tasks. -/
theorem started_turn (s : State) (task : TaskId) (a : Activity) :
    (s.turn task a).started = [] ∨ ∃ id assignments added, a = .request id assignments added := by
  have kind := outline s task a
  generalize (s.turn task a).next = next, (s.turn task a).started = started,
    (s.turn task a).woken = woken at kind ⊢
  cases kind with
  | launches _ _ | ends _ _ | calls _ | passes _ _ _ _ => exact .inl rfl
  | requests => exact .inr ⟨_, _, _, rfl⟩

/-- Asking for an invocation begins no task, or the one that carries the invocation. -/
theorem started_startInvocation (s : State) (id : ContextId) :
    (s.startInvocation id).2 = [] ∨
      ∃ invocation, (s.startInvocation id).2 = [.launch id invocation] ∧
        (s.registry.context? id).any (fun c => c.begin.2.isSome) = true := by
  unfold startInvocation
  cases found : s.registry.context? id with
  | none => exact .inl rfl
  | some c =>
    obtain equal | ⟨target, _, _, equal⟩ := c.begin_cases
    · exact .inl (by simp only [equal])
    · refine .inr ⟨.ofTarget target c.settings.options, ?_, ?_⟩
      · simp only [equal]
      · simp [equal]

theorem course_of_startInvocation {s later : State} {id : ContextId} {e : Event}
    (made : s.contextChange? e id = some .begin) (count : later.taskCount = s.taskCount)
    {task : TaskId} {b : Activity} (missing : later.activity? task = none)
    (activity : ((s.startInvocation id).2.foldl begin later).activity? task = some b) :
    Course s e task b := by
  obtain nothing | ⟨invocation, started, begins⟩ := s.started_startInvocation id
  · rw [nothing, List.foldl_nil, missing] at activity
    cases activity
  · rw [started, List.foldl_cons, List.foldl_nil, activity?_begin, missing, Option.none_or, count]
      at activity
    split at activity
    next new =>
      cases activity
      rw [← new]
      exact .begins (if_pos ⟨made, begins⟩)
    next => cases activity

theorem Roster.activity?_of_le {s : State} (roster : s.Roster) {task : TaskId}
    (new : s.taskCount ≤ task) : s.activity? task = none := by
  cases activity : s.activity? task with
  | none => rfl
  | some a => exact absurd new (Nat.not_le.mpr (roster.number_lt activity))

theorem course_of_new {s : State} (roster : s.Roster) {e : Event} {task : TaskId} {b : Activity}
    (new : s.taskCount ≤ task) (activity : (s.after e).activity? task = some b) :
    Course s e task b := by
  have missing : s.activity? task = none := roster.activity?_of_le new
  have unchanged : ∀ other : State, other.tasks = s.tasks → other.activity? task ≠ some b := by
    intro other same found
    rw [activity?_congr same, missing] at found
    cases found
  cases e with
  | advance moved =>
    simp only [after] at activity
    cases moving : s.activity? moved with
    | none =>
      simp only [advance, moving] at activity
      exact absurd activity (unchanged _ rfl)
    | some a =>
      have same := sameTasks_turn s moved a
      have count : ((s.turn moved a).state.follow moved (s.turn moved a).next).taskCount =
          s.taskCount := (taskCount_follow _ _ _).trans same.taskCount
      have absent : ((s.turn moved a).state.follow moved (s.turn moved a).next).activity? task =
          none := by
        rw [activity?_follow, activity?_congr same.tasks, missing]
        split <;> rfl
      rw [advance_eq moving, activity?_congr (tasks_foldl_wake _ _)] at activity
      obtain nothing | ⟨id, assignments, added, rfl⟩ := s.started_turn moved a
      · rw [nothing, List.foldl_nil, absent] at activity
        cases activity
      · exact course_of_startInvocation (contextChange?_of_touches (.request moving)) count absent
          activity
  | perform operation =>
    simp only [after, perform, activity?_begin, missing, Option.none_or] at activity
    split at activity
    next equal =>
      cases activity
      rw [← equal]
      exact .performs
    next => cases activity
  | run id =>
    have same := sameTasks_startInvocation s id
    exact course_of_startInvocation (contextChange?_of_touches .run) same.taskCount
      ((activity?_congr same.tasks task).trans missing) activity
  | assign id file reparse =>
    exact absurd activity (unchanged _ (sameTasks_assignMainFile s id file reparse).tasks)
  | cancel dropped =>
    rw [after, cancel, activity?_dropTask, missing, ite_self] at activity
    cases activity
  | instruct instruction => exact absurd activity (unchanged _ (tasks_script s _).tasks)
  | release gate =>
    exact absurd activity (unchanged _ ((tasks_foldl_wake _ _).trans (tasks_script s _).tasks))
  | surround files now => exact absurd activity (unchanged _ rfl)

/-! ### Old tasks -/

/-- Every task that is there after an event has come to its activity in one of the four ways. -/
theorem course {s : State} (roster : s.Roster) {e : Event} {task : TaskId} {b : Activity}
    (activity : (s.after e).activity? task = some b) : Course s e task b := by
  obtain old | new := Nat.lt_or_ge task s.taskCount
  · by_cases moved : e = .advance task
    · subst moved
      cases before : s.activity? task with
      | none =>
        rw [activity?_after_of_ended old before] at activity
        cases activity
      | some a =>
        rw [after, activity?_advance before old, if_pos rfl] at activity
        exact .moves before activity
    · have notDropped : e ≠ .cancel task := by
        rintro rfl
        rw [after, cancel, activity?_dropTask, if_pos rfl] at activity
        cases activity
      rw [activity?_after old moved notDropped] at activity
      exact .stays moved activity
  · exact course_of_new roster new activity

end PawnQuery.Engine.State
