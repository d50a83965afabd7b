import PawnQuery.Proofs.Engine.Tasks

/-!
# Five kinds of sections

When it comes to tasks there are five kinds of sections: an invocation is handed to the compiler,
an invocation ends, an invocation is asked for, a task queues up for the end of one, and all others,
which only bring their own task further.
-/

namespace PawnQuery.Engine

namespace State

/-- How a task goes on when it has asked to be told of the end of an invocation. -/
def nextAfterCall (s : State) (id : ContextId) (after : Activity) : Next :=
  if s.isRunning id then .parked after else .ready after

/-- What a section does to the tasks: how its own task goes on, which activities it begins as new
tasks, and which tasks it wakes. -/
inductive Outline (s : State) : Activity → Next → List Activity → List TaskId → Prop where
  | launches {id : ContextId} {invocation : Compiler.Invocation} {next : Next}
      {carried : Activity} (goes : next.activity? = some carried)
      (carries : carried.invocation? = some id) :
      Outline s (.launch id invocation) next [] []
  | ends {a : Activity} {id : ContextId} {next : Next} (ending : a.ended? = some id)
      (plain : next.IsPlain) : Outline s a next [] (s.waitersOf id)
  | requests {id : ContextId} {assignments : List Registry.Assignment}
      {added : List Workspace.Descriptor} :
      Outline s (.request id assignments added) (.ready (.assign assignments added))
        (s.startInvocation id).2 []
  | calls {a after : Activity} {id : ContextId} (awaits : a.awaited? = some (id, after)) :
      Outline s a (s.nextAfterCall id after) [] []
  | passes {a : Activity} {next : Next} (carries : a.invocation? = none)
      (awaits : a.awaited? = none) (asks : a.asked? = none) (plain : next.IsPlain) :
      Outline s a next [] []

theorem outline_awaitContext {s : State} {task : TaskId} {a after : Activity} {id : ContextId}
    (awaits : a.awaited? = some (id, after)) :
    Outline s a (s.awaitContext task id after).next (s.awaitContext task id after).started
      (s.awaitContext task id after).woken := by
  have next : (s.awaitContext task id after).next = s.nextAfterCall id after ∧
      (s.awaitContext task id after).started = [] ∧ (s.awaitContext task id after).woken = [] := by
    cases found : s.registry.context? id with
    | none => simp [awaitContext, nextAfterCall, isRunning, found]
    | some c =>
      obtain ⟨idle, equal⟩ | ⟨busy, equal⟩ := c.enqueue_cases task
      · simp [awaitContext, nextAfterCall, isRunning, found, equal, Context.inProgress, idle]
      · simp [awaitContext, nextAfterCall, isRunning, found, equal, Context.inProgress,
          Nat.pos_of_ne_zero busy]
  rw [next.1, next.2.1, next.2.2]
  exact .calls awaits

theorem outline_publish {s : State} {a : Activity} {id : ContextId} (ending : a.ended? = some id)
    (reply : Option Compiler.Reply) {next : Next} (plain : next.IsPlain) :
    Outline s a (s.publish id reply next).next (s.publish id reply next).started
      (s.publish id reply next).woken := by
  have woken : (s.publish id reply next).next = next ∧ (s.publish id reply next).started = [] ∧
      (s.publish id reply next).woken = s.waitersOf id := by
    cases found : s.registry.context? id <;> simp [publish, waitersOf, found, Context.finish]
  rw [woken.1, woken.2.1, woken.2.2]
  exact .ends ending plain

theorem isPlain_sweepNext (keys : List Path) : (sweepNext keys).IsPlain := by
  cases keys with
  | nil => trivial
  | cons key rest => exact rfl

theorem outline (s : State) (task : TaskId) (a : Activity) :
    Outline s a (s.turn task a).next (s.turn task a).started (s.turn task a).woken := by
  cases a with
  | launch id invocation =>
    simp only [turn, launch]
    split
    · have goes : (Next.ready (.giveUp id)).activity? = some (.giveUp id) := rfl
      exact .launches goes rfl
    · next compiler reply _ =>
      refine .launches (?_ : Next.activity? _ = some (.collect id reply)) rfl
      split <;> rfl
  | giveUp id => exact outline_publish rfl none trivial
  | collect id reply => exact outline_publish rfl (some reply) rfl
  | request id assignments added => exact .requests
  | wait id => exact outline_awaitContext rfl
  | search q left =>
    cases left with
    | nil => exact .passes rfl rfl rfl rfl
    | cons w rest =>
      by_cases around : q.path.startsWith w.root = true
      · simp only [turn, searchNext, if_pos around]
        exact outline_awaitContext (by simp only [Activity.awaited?, if_pos around])
      · simp only [turn, searchNext, if_neg around]
        exact .passes rfl (by simp only [Activity.awaited?, if_neg around]) rfl rfl
  | tell id =>
    simp only [turn, tell]
    split
    · exact .passes rfl rfl rfl trivial
    · split
      · split
        · exact .passes rfl rfl rfl trivial
        · exact .passes rfl rfl rfl rfl
        · exact .passes rfl rfl rfl trivial
      · exact .passes rfl rfl rfl trivial
  | register todo made => cases todo <;> exact .passes rfl rfl rfl rfl
  | enroll added =>
    cases added with
    | nil => exact .passes rfl rfl rfl trivial
    | cons d rest => exact .passes rfl rfl rfl rfl
  | assign assignments added => cases assignments <;> exact .passes rfl rfl rfl rfl
  | resolve path goal => simp only [turn, resolveOwner]; split <;> exact .passes rfl rfl rfl rfl
  | enter q left =>
    cases left with
    | nil => exact .passes rfl rfl rfl rfl
    | cons w rest => simp only [turn, enterNext]; split <;> exact .passes rfl rfl rfl rfl
  | inspect q w left => simp only [turn, inspectNext]; split <;> exact .passes rfl rfl rfl rfl
  | settle path goal owner =>
    cases goal with
    | tell | fetch _ | remove => exact .passes rfl rfl rfl trivial
    | sweep rest => exact .passes rfl rfl rfl (isPlain_sweepNext rest)
  | sweep => exact .passes rfl rfl rfl (isPlain_sweepNext _)
  | detach removed added => exact .passes rfl rfl rfl rfl
  | clear | leave => exact .passes rfl rfl rfl trivial

/-- A section that asks to be told of the end of an invocation does nothing else. -/
theorem turn_of_awaited? (s : State) (task : TaskId) {a after : Activity} {id : ContextId}
    (awaits : a.awaited? = some (id, after)) :
    (s.turn task a).next = s.nextAfterCall id after ∧ (s.turn task a).started = [] ∧
      (s.turn task a).woken = [] := by
  have kind := outline s task a
  generalize (s.turn task a).next = next, (s.turn task a).started = started,
    (s.turn task a).woken = woken at kind ⊢
  cases kind with
  | launches _ _ | requests => cases awaits
  | ends ending _ =>
    have carries := invocation?_of_ended? ending
    rw [(invocation?_of_awaited? awaits).1] at carries
    cases carries
  | calls other =>
    rw [awaits] at other
    cases other
    exact ⟨rfl, rfl, rfl⟩
  | passes _ other _ _ =>
    rw [awaits] at other
    cases other

theorem turn_of_ended? (s : State) (task : TaskId) {a : Activity} {id : ContextId}
    (ending : a.ended? = some id) :
    (s.turn task a).next.IsPlain ∧ (s.turn task a).started = [] ∧
      (s.turn task a).woken = s.waitersOf id := by
  have kind := outline s task a
  generalize (s.turn task a).next = next, (s.turn task a).started = started,
    (s.turn task a).woken = woken at kind ⊢
  cases kind with
  | launches _ _ | requests => cases ending
  | ends other plain =>
    rw [ending] at other
    cases other
    exact ⟨plain, rfl, rfl⟩
  | calls awaits =>
    rw [ended?_of_invocation? (invocation?_of_awaited? awaits).1] at ending
    cases ending
  | passes carries _ _ _ =>
    rw [ended?_of_invocation? carries] at ending
    cases ending

/-! ## What a section leaves to the task that moves -/

/-- Tasks other than its own are out of reach of a section. -/
structure SameTasks (s other : State) : Prop where
  tasks : other.tasks = s.tasks
  taskCount : other.taskCount = s.taskCount
  queue : other.queue = s.queue
  answers : other.answers = s.answers

theorem sameTasks_startInvocation (s : State) (id : ContextId) :
    SameTasks s (s.startInvocation id).1 := by
  unfold startInvocation
  cases s.registry.context? id with
  | none => exact ⟨rfl, rfl, rfl, rfl⟩
  | some c =>
    obtain equal | ⟨_, _, _, equal⟩ := c.begin_cases <;> simp only [equal] <;>
      exact ⟨rfl, rfl, rfl, rfl⟩

theorem sameTasks_assignMainFile (s : State) (id : ContextId) (file : String) (reparse : Bool) :
    SameTasks s (s.assignMainFile id file reparse) := by
  unfold assignMainFile
  cases s.registry.context? id <;> exact ⟨rfl, rfl, rfl, rfl⟩

theorem sameTasks_publish (s : State) (id : ContextId) (reply : Option Compiler.Reply)
    (next : Next) : SameTasks s (s.publish id reply next).state := by
  unfold publish
  cases s.registry.context? id <;> exact ⟨rfl, rfl, rfl, rfl⟩

theorem sameTasks_awaitContext (s : State) (task : TaskId) (id : ContextId) (next : Activity) :
    SameTasks s (s.awaitContext task id next).state := by
  unfold awaitContext
  cases s.registry.context? id with
  | none => exact ⟨rfl, rfl, rfl, rfl⟩
  | some c =>
    obtain ⟨_, equal⟩ | ⟨_, equal⟩ := c.enqueue_cases task <;> simp only [equal] <;>
      exact ⟨rfl, rfl, rfl, rfl⟩

theorem sameTasks_turn (s : State) (task : TaskId) (a : Activity) :
    SameTasks s (s.turn task a).state := by
  cases a with
  | launch id invocation => simp only [turn, launch]; split <;> exact ⟨rfl, rfl, rfl, rfl⟩
  | giveUp id => exact sameTasks_publish s id none _
  | collect id reply => exact sameTasks_publish s id (some reply) _
  | tell id =>
    simp only [turn, tell]
    split
    · exact ⟨rfl, rfl, rfl, rfl⟩
    · split
      · split <;> exact ⟨rfl, rfl, rfl, rfl⟩
      · exact ⟨rfl, rfl, rfl, rfl⟩
  | register todo made => cases todo <;> exact ⟨rfl, rfl, rfl, rfl⟩
  | enroll added => cases added <;> exact ⟨rfl, rfl, rfl, rfl⟩
  | assign assignments added =>
    cases assignments with
    | nil => exact ⟨rfl, rfl, rfl, rfl⟩
    | cons a rest => exact sameTasks_assignMainFile s a.context a.mainFile true
  | request id assignments added => exact sameTasks_startInvocation s id
  | wait id => exact sameTasks_awaitContext s task id _
  | resolve path goal => simp only [turn, resolveOwner]; split <;> exact ⟨rfl, rfl, rfl, rfl⟩
  | enter q left =>
    cases left with
    | nil => exact ⟨rfl, rfl, rfl, rfl⟩
    | cons w rest => simp only [turn, enterNext]; split <;> exact ⟨rfl, rfl, rfl, rfl⟩
  | search q left =>
    cases left with
    | nil => exact ⟨rfl, rfl, rfl, rfl⟩
    | cons w rest =>
      simp only [turn, searchNext]
      split
      · exact sameTasks_awaitContext s task w.context _
      · exact ⟨rfl, rfl, rfl, rfl⟩
  | inspect q w left => simp only [turn, inspectNext]; split <;> exact ⟨rfl, rfl, rfl, rfl⟩
  | settle path goal owner => cases goal <;> exact ⟨rfl, rfl, rfl, rfl⟩
  | detach removed added | clear | leave | sweep => exact ⟨rfl, rfl, rfl, rfl⟩

theorem advance_eq {s : State} {task : TaskId} {a : Activity} (activity : s.activity? task = some a) :
    s.advance task =
      (s.turn task a).woken.foldl wake ((s.turn task a).started.foldl begin
        ((s.turn task a).state.follow task (s.turn task a).next)) := by
  simp only [advance, activity]

end State

end PawnQuery.Engine
