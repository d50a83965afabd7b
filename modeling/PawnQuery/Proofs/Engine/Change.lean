import PawnQuery.Proofs.Engine.Run

/-!
# What events do to the registry

An event carries out one section, and a section makes one change of the registry at most.  Which
one it is depends on the activity of the task that moves alone.
-/

namespace PawnQuery.Engine

open PawnQuery.Registry (Change TableChange)

/-- The context that a task is about to queue up for, and where it goes on from there. -/
def Activity.awaited? : Activity → Option (ContextId × Activity)
  | .wait id => some (id, .leave)
  | .search q (w :: left) =>
    if q.path.startsWith w.root then some (w.context, .inspect q w left) else none
  | _ => none

/-- What becomes of the tables once the owner of a path is known. -/
def Goal.change? (path owner : Path) : Goal → Option TableChange
  | .tell => none
  | .fetch create => some (.fetch owner create)
  | .remove => some (.forget owner)
  | .sweep _ => some (.subsume path owner)

namespace State

/-- The change that the next section of a task makes. -/
def changeBy? (s : State) (task : TaskId) : Activity → Option Change
  | .giveUp id => some (.context id (.finish none s.now))
  | .collect id reply => some (.context id (.finish (some reply) s.now))
  | .register [] _ => some (.tables .markInitialized)
  | .register (d :: _) _ => some (.tables (.register d s.files))
  | .detach removed _ => some (.tables (.detach removed))
  | .enroll (d :: _) => some (.tables (.register d s.files))
  | .assign (a :: _) _ => some (.context a.context (.setMainFile a.mainFile true))
  | .request id _ _ => some (.context id .begin)
  | .clear => some (.tables .clear)
  | .settle path goal owner => (goal.change? path owner).map .tables
  | a => a.awaited?.map fun waits => .context waits.1 (.enqueue task)

def change? (s : State) : Event → Option Change
  | .advance task => (s.activity? task).bind (s.changeBy? task)
  | .run id => some (.context id .begin)
  | .assign id file reparse => some (.context id (.setMainFile file reparse))
  | _ => none

/-! ## The registry beside the tasks -/

@[simp] theorem registry_follow (s : State) (task : TaskId) (next : Next) :
    (s.follow task next).registry = s.registry := by
  cases next <;> rfl

@[simp] theorem registry_foldl_begin (s : State) (activities : List Activity) :
    (activities.foldl begin s).registry = s.registry := by
  induction activities generalizing s with
  | nil => rfl
  | cons a activities inductionHypothesis => rw [List.foldl_cons, inductionHypothesis]; rfl

/-- Those who have not ended are queued in the order in which they are woken. -/
theorem foldl_wake (s : State) (woken : List TaskId) :
    woken.foldl wake s = { s with queue := s.queue ++ woken.filter s.hasTask } := by
  induction woken generalizing s with
  | nil => simp
  | cons task woken inductionHypothesis =>
    have same : ({ s with queue := s.queue ++ [task] } : State).hasTask = s.hasTask := rfl
    rw [List.foldl_cons, inductionHypothesis]
    by_cases present : s.hasTask task = true <;> simp [wake, present, same]

@[simp] theorem registry_foldl_wake (s : State) (woken : List TaskId) :
    (woken.foldl wake s).registry = s.registry := by
  rw [foldl_wake]

@[simp] theorem registry_script (s : State) (change : Compiler.Replay → Compiler.Replay) :
    (s.script change).registry = s.registry := by
  unfold script
  split <;> rfl

/-! ## Sections -/

theorem registry_startInvocation (s : State) (id : ContextId) :
    (s.startInvocation id).1.registry = s.registry.apply (.context id .begin) := by
  simp only [startInvocation, Registry.apply, Registry.changeContext, Context.apply]
  cases found : s.registry.context? id with
  | none => rfl
  | some c =>
    obtain equal | ⟨target, _, _, equal⟩ := c.begin_cases
    · simp only [equal, Registry.setContext_self found]
    · simp only [equal]

theorem registry_assignMainFile (s : State) (id : ContextId) (file : String) (reparse : Bool) :
    (s.assignMainFile id file reparse).registry =
      s.registry.apply (.context id (.setMainFile file reparse)) := by
  simp only [assignMainFile, Registry.apply, Registry.changeContext, Context.apply]
  cases s.registry.context? id <;> rfl

theorem registry_publish (s : State) (id : ContextId) (reply : Option Compiler.Reply)
    (next : Next) :
    (s.publish id reply next).state.registry =
      s.registry.apply (.context id (.finish reply s.now)) := by
  simp only [publish, Registry.apply, Registry.changeContext, Context.apply]
  cases s.registry.context? id <;> rfl

theorem registry_awaitContext (s : State) (task : TaskId) (id : ContextId) (next : Activity) :
    (s.awaitContext task id next).state.registry =
      s.registry.apply (.context id (.enqueue task)) := by
  simp only [awaitContext, Registry.apply, Registry.changeContext, Context.apply]
  cases found : s.registry.context? id with
  | none => rfl
  | some c =>
    obtain ⟨_, equal⟩ | ⟨_, equal⟩ := c.enqueue_cases task
    · simp only [equal, Registry.setContext_self found]
    · simp only [equal]

theorem registry_launch (s : State) (id : ContextId) (invocation : Compiler.Invocation) :
    (s.launch id invocation).state.registry = s.registry := by
  unfold launch
  split <;> rfl

theorem registry_tell (s : State) (id : ContextId) :
    (s.tell id).state.registry = s.registry := by
  unfold tell
  split
  · rfl
  · split
    · split <;> rfl
    · rfl

theorem registry_turn (s : State) (task : TaskId) (a : Activity) :
    (s.turn task a).state.registry = (s.changeBy? task a).elim s.registry s.registry.apply := by
  cases a with
  | launch id invocation => exact registry_launch s id invocation
  | giveUp id => exact registry_publish s id none _
  | collect id reply => exact registry_publish s id (some reply) _
  | tell id => exact registry_tell s id
  | register todo made => cases todo <;> rfl
  | enroll added => cases added <;> rfl
  | assign assignments added =>
    cases assignments with
    | nil => rfl
    | cons a rest => exact registry_assignMainFile s a.context a.mainFile true
  | request id assignments added => exact registry_startInvocation s id
  | wait id => exact registry_awaitContext s task id .leave
  | resolve path goal => simp only [turn, resolveOwner]; split <;> rfl
  | enter q left =>
    cases left with
    | nil => rfl
    | cons w rest => simp only [turn, enterNext]; split <;> rfl
  | search q left =>
    cases left with
    | nil => rfl
    | cons w rest =>
      by_cases around : q.path.startsWith w.root = true
      · simp only [turn, searchNext, changeBy?, Activity.awaited?, if_pos around]
        exact registry_awaitContext s task w.context _
      · simp only [turn, searchNext, changeBy?, Activity.awaited?, if_neg around]
        rfl
  | inspect q w left => simp only [turn, inspectNext]; split <;> rfl
  | settle path goal owner => cases goal <;> rfl
  | detach removed added | clear | leave | sweep => rfl

theorem registry_after (s : State) (e : Event) :
    (s.after e).registry = (s.change? e).elim s.registry s.registry.apply := by
  cases e with
  | advance task =>
    simp only [after, advance, change?]
    cases s.activity? task with
    | none => rfl
    | some a =>
      simp only [registry_foldl_wake, registry_foldl_begin, registry_follow, registry_turn,
        Option.bind_some]
  | run id =>
    simp only [after, run, registry_foldl_begin, registry_startInvocation]
    rfl
  | assign id file reparse => exact registry_assignMainFile s id file reparse
  | instruct instruction => exact registry_script s _
  | release gate => simp only [after, release, registry_foldl_wake, registry_script]; rfl
  | perform _ | cancel _ | surround _ _ => rfl

/-! ## Contexts -/

/-- What an event does to the context of this number. -/
def contextChange? (s : State) (e : Event) (id : ContextId) : Option Context.Change :=
  (s.change? e).bind (·.on? id)

/-- A context that exists changes by what an event does to it. -/
theorem context?_after {s : State} {id : ContextId} {c : Context}
    (found : s.registry.context? id = some c) (e : Event) :
    (s.after e).registry.context? id = some ((s.contextChange? e id).elim c c.apply) := by
  rw [registry_after, contextChange?]
  cases s.change? e with
  | none => exact found
  | some change => exact Registry.context?_apply found change

theorem isFresh_of_context?_after {s : State} {id : ContextId} {c : Context}
    (missing : s.registry.context? id = none) (e : Event)
    (found : (s.after e).registry.context? id = some c) : c.IsFresh := by
  rw [registry_after] at found
  cases made : s.change? e with
  | none => rw [made, Option.elim_none, missing] at found; cases found
  | some change =>
    rw [made, Option.elim_some] at found
    exact Registry.isFresh_of_context?_apply missing change found

/-- The seven ways in which an event touches a context. -/
inductive Touches (s : State) (id : ContextId) : Event → Context.Change → Prop where
  | run : Touches s id (.run id) .begin
  | assign {file : String} {reparse : Bool} :
      Touches s id (.assign id file reparse) (.setMainFile file reparse)
  | request {task : TaskId} {assignments : List Registry.Assignment}
      {added : List Workspace.Descriptor}
      (activity : s.activity? task = some (.request id assignments added)) :
      Touches s id (.advance task) .begin
  | assignNext {task : TaskId} {file : String} {rest : List Registry.Assignment}
      {added : List Workspace.Descriptor}
      (activity : s.activity? task = some (.assign (⟨id, file⟩ :: rest) added)) :
      Touches s id (.advance task) (.setMainFile file true)
  | call {task : TaskId} {a after : Activity} (activity : s.activity? task = some a)
      (awaits : a.awaited? = some (id, after)) : Touches s id (.advance task) (.enqueue task)
  | giveUp {task : TaskId} (activity : s.activity? task = some (.giveUp id)) :
      Touches s id (.advance task) (.finish none s.now)
  | collect {task : TaskId} {reply : Compiler.Reply}
      (activity : s.activity? task = some (.collect id reply)) :
      Touches s id (.advance task) (.finish (some reply) s.now)

theorem touches_of_awaited? {s : State} {id : ContextId} {task : TaskId} {a : Activity}
    {change : Context.Change} (activity : s.activity? task = some a)
    (made : (a.awaited?.map fun waits => Change.context waits.1 (.enqueue task)).bind (·.on? id) =
      some change) : Touches s id (.advance task) change := by
  cases awaits : a.awaited? with
  | none => rw [awaits] at made; cases made
  | some waits =>
    rw [awaits] at made
    simp only [Option.map_some, Option.bind_some, Change.on?] at made
    split at made
    next same =>
      cases made
      have waited : a.awaited? = some (id, waits.2) := by rw [awaits, ← same]
      exact .call activity waited
    next => cases made

/-- An event that changes a context does so in one of seven ways. -/
theorem touches_of_contextChange? {s : State} {e : Event} {id : ContextId}
    {change : Context.Change} (made : s.contextChange? e id = some change) :
    Touches s id e change := by
  cases e with
  | advance task =>
    simp only [contextChange?, change?] at made
    cases activity : s.activity? task with
    | none => rw [activity] at made; cases made
    | some a =>
      rw [activity, Option.bind_some] at made
      cases a with
      | giveUp changed =>
        simp only [changeBy?, Option.bind_some, Change.on?] at made
        split at made <;> cases made
        next same => exact .giveUp (by rw [activity, same])
      | collect changed reply =>
        simp only [changeBy?, Option.bind_some, Change.on?] at made
        split at made <;> cases made
        next same => exact .collect (by rw [activity, same])
      | request changed assignments added =>
        simp only [changeBy?, Option.bind_some, Change.on?] at made
        split at made <;> cases made
        next same => exact .request (by rw [activity, same])
      | assign assignments added =>
        cases assignments with
        | nil => cases made
        | cons a rest =>
          simp only [changeBy?, Option.bind_some, Change.on?] at made
          split at made <;> cases made
          next same => exact .assignNext (by rw [activity, ← same])
      | register todo made' => cases todo <;> cases made
      | enroll added => cases added <;> cases made
      | settle path goal owner => cases goal <;> cases made
      | launch _ _ | tell _ | wait _ | leave | resolve _ _ | enter _ _ | search _ _
      | inspect _ _ _ | sweep => exact touches_of_awaited? activity made
      | detach _ _ | clear => cases made
  | run changed =>
    simp only [contextChange?, change?, Option.bind_some, Change.on?] at made
    split at made <;> cases made
    next same => rw [same]; exact .run
  | assign changed file reparse =>
    simp only [contextChange?, change?, Option.bind_some, Change.on?] at made
    split at made <;> cases made
    next same => rw [same]; exact .assign
  | perform _ | cancel _ | instruct _ | release _ | surround _ _ => cases made

theorem contextChange?_of_touches {s : State} {e : Event} {id : ContextId}
    {change : Context.Change} (touches : Touches s id e change) :
    s.contextChange? e id = some change := by
  cases touches with
  | run | assign => simp [contextChange?, change?, Change.on?]
  | request activity | assignNext activity | giveUp activity | collect activity =>
    simp [contextChange?, change?, activity, changeBy?, Change.on?]
  | @call task a after activity awaits =>
    cases a with
    | wait awaited =>
      cases awaits
      simp [contextChange?, change?, activity, changeBy?, Activity.awaited?, Change.on?]
    | search q left =>
      simp [contextChange?, change?, activity, changeBy?, awaits, Change.on?]
    | _ => cases awaits

end State

end PawnQuery.Engine
