import PawnQuery.Proofs.Engine.Invocation

/-!
# The queue and those who wait

A task is in the queue of those that can move, or it waits for the end of an invocation, but never
both; it waits for one context at a time and is named there once.  A task that waits carries no
invocation, so nothing but the end of the invocation that it waits for brings it back.
-/

namespace PawnQuery.Engine

open PawnQuery.Compiler (GateId Reply)

namespace State

/-- The tasks that queue up for the end of an invocation with an event. -/
def callsBy (id : ContextId) (s : State) : Event → List TaskId
  | .advance task =>
    if s.contextChange? (.advance task) id = some (.enqueue task) ∧ s.isRunning id = true then
      [task]
    else []
  | _ => []

/-- The tasks that an event wakes, whether they are still there or not. -/
def wokenBy (s : State) : Event → List TaskId
  | .advance task => ((s.activity? task).map fun a => (s.turn task a).woken).getD []
  | .release gate => s.heldBy gate
  | _ => []

/-- Where tasks that can move or wait are. -/
structure Orderly (s : State) : Prop where
  queued : ∀ task ∈ s.queue, s.hasTask task = true
  once : s.queue.Nodup
  parked : ∀ id, ∀ task ∈ s.waitersOf id, task ∉ s.queue
  known : ∀ id, ∀ task ∈ s.waitersOf id, task < s.taskCount
  plain : ∀ id, ∀ task ∈ s.waitersOf id, ∀ a, s.activity? task = some a → a.invocation? = none
  calledOnce : ∀ id, (s.waitersOf id).Nodup
  apart : ∀ id other task, task ∈ s.waitersOf id → task ∈ s.waitersOf other → id = other

theorem Initial.orderly {s : State} (initial : s.Initial) : s.Orderly := by
  have nobody : ∀ id, s.waitersOf id = [] := by
    intro id
    unfold waitersOf
    cases found : s.registry.context? id with
    | none => rfl
    | some c => exact (initial.fresh c (List.mem_of_getElem? found)).waiters
  constructor
  · simp [initial.queue]
  · simp [initial.queue]
  · simp [nobody]
  · simp [nobody]
  · simp [nobody]
  · simp [nobody]
  · simp [nobody]

/-! ## What a task has come to -/

theorem activity?_foldl_begin (s : State) (activities : List Activity) {task : TaskId}
    (old : task < s.taskCount) :
    (activities.foldl begin s).activity? task = s.activity? task := by
  induction activities generalizing s with
  | nil => rfl
  | cons a activities inductionHypothesis =>
    rw [List.foldl_cons, inductionHypothesis _ (Nat.lt_succ_of_lt old), activity?_begin,
      if_neg (Nat.ne_of_gt old), Option.or_none]

theorem activity?_begin_new {s : State} (roster : s.Roster) (a : Activity) :
    (s.begin a).activity? s.taskCount = some a := by
  have new : s.activity? s.taskCount = none := by
    cases known : s.activity? s.taskCount with
    | none => rfl
    | some b =>
      exact absurd (roster.number_lt known) (Nat.lt_irrefl _)
  rw [activity?_begin, new, Option.none_or, if_pos rfl]

theorem activity?_advance {s : State} {moved : TaskId} {a : Activity}
    (activity : s.activity? moved = some a) {task : TaskId} (old : task < s.taskCount) :
    (s.advance moved).activity? task =
      if moved = task then (s.turn moved a).next.activity? else s.activity? task := by
  have same := sameTasks_turn s moved a
  have counted : task < ((s.turn moved a).state.follow moved (s.turn moved a).next).taskCount := by
    rw [taskCount_follow, same.taskCount]
    exact old
  rw [advance_eq activity, activity?_congr (tasks_foldl_wake _ _),
    activity?_foldl_begin _ _ counted, activity?_follow, activity?_congr same.tasks]
  split
  next equal => rw [← equal, activity, Option.bind_some]
  next => rfl

/-- Only its own section and being dropped change what a task has come to. -/
theorem activity?_after {s : State} {e : Event} {task : TaskId} (old : task < s.taskCount)
    (notMoved : e ≠ .advance task) (notDropped : e ≠ .cancel task) :
    (s.after e).activity? task = s.activity? task := by
  cases e with
  | advance moved =>
    have differs : moved ≠ task := fun equal => notMoved (by rw [equal])
    cases activity : s.activity? moved with
    | none => simp only [after, advance, activity]; rfl
    | some a => rw [after, activity?_advance activity old, if_neg differs]
  | perform operation => exact activity?_foldl_begin s [operation.activity] old
  | run id =>
    have same := sameTasks_startInvocation s id
    have counted : task < (s.startInvocation id).1.taskCount := by
      rw [same.taskCount]
      exact old
    exact (activity?_foldl_begin _ _ counted).trans (activity?_congr same.tasks task)
  | assign id file reparse =>
    exact activity?_congr (sameTasks_assignMainFile s id file reparse).tasks task
  | cancel dropped =>
    have differs : dropped ≠ task := fun equal => notDropped (by rw [equal])
    exact (activity?_dropTask s dropped task).trans (if_neg differs)
  | instruct instruction => exact activity?_congr (tasks_script s _).tasks task
  | release gate =>
    exact activity?_congr ((tasks_foldl_wake _ _).trans (tasks_script s _).tasks) task
  | surround files now => rfl

theorem activity?_after_of_ended {s : State} {task : TaskId} (old : task < s.taskCount)
    (ended : s.activity? task = none) (e : Event) : (s.after e).activity? task = none := by
  by_cases moved : e = .advance task
  · subst moved
    simp only [after, advance, ended]
    exact ended
  · by_cases dropped : e = .cancel task
    · subst dropped
      exact (activity?_dropTask s task task).trans (if_pos rfl)
    · rw [activity?_after old moved dropped, ended]

theorem hasTask_cancel (s : State) (task : TaskId) :
    (s.after (.cancel task)).hasTask task = false := by
  rw [hasTask_eq, after, cancel, activity?_dropTask, if_pos rfl]
  rfl

/-! ## Who waits -/

theorem callsBy_of_not_enqueue {s : State} {id : ContextId} {e : Event}
    (differs : ∀ task, s.contextChange? e id ≠ some (.enqueue task)) : callsBy id s e = [] := by
  cases e with
  | advance task => exact if_neg fun calls => differs task calls.1
  | _ => rfl

theorem callsBy_of_idle {s : State} {id : ContextId} (idle : s.isRunning id = false) (e : Event) :
    callsBy id s e = [] := by
  cases e with
  | advance task => exact if_neg fun calls => by simp [idle] at calls
  | _ => rfl

theorem waitersOf_of_found {s : State} {id : ContextId} {c : Context}
    (found : s.registry.context? id = some c) : s.waitersOf id = c.waiters := by
  simp [waitersOf, found]

theorem isRunning_of_found {s : State} {id : ContextId} {c : Context}
    (found : s.registry.context? id = some c) : s.isRunning id = c.inProgress := by
  simp [isRunning, found]

/-- Calls join the queue of those who wait, and the end of an invocation empties it. -/
theorem waitersOf_after (s : State) (e : Event) (id : ContextId) :
    (s.after e).waitersOf id =
      if endedBy id s e = [] then s.waitersOf id ++ callsBy id s e else [] := by
  cases found : s.registry.context? id with
  | none =>
    have nobody : (s.after e).waitersOf id = [] := by
      unfold waitersOf
      cases new : (s.after e).registry.context? id with
      | none => rfl
      | some c => exact (isFresh_of_context?_after found e new).waiters
    have idle : s.isRunning id = false := by simp [isRunning, found]
    rw [nobody, callsBy_of_idle idle]
    simp [waitersOf, found]
  | some c =>
    have after := context?_after found e
    rw [waitersOf_of_found after, waitersOf_of_found found]
    cases made : s.contextChange? e id with
    | none =>
      rw [endedBy_of_untouched made, callsBy_of_not_enqueue (by simp [made]), if_pos rfl,
        List.append_nil]
      rfl
    | some change =>
      have touches := touches_of_contextChange? made
      obtain ⟨task, reply, -, rfl, ends, -⟩ | ⟨-, ends⟩ := endedBy_of_touches touches
      · rw [ends, if_neg (List.cons_ne_nil _ _)]
        rfl
      · rw [ends, if_pos rfl]
        cases touches with
        | run | request _ =>
          rw [callsBy_of_not_enqueue (by simp [made]), List.append_nil]
          obtain equal | ⟨_, _, _, equal⟩ := c.begin_cases <;>
            simp only [Option.elim_some, Context.apply, equal]
        | assign | assignNext _ =>
          rw [callsBy_of_not_enqueue (by simp [made]), List.append_nil]
          simp only [Option.elim_some, Context.apply, Context.setMainFile]
          split <;> rfl
        | @call task a next activity awaits =>
          obtain ⟨idle, equal⟩ | ⟨busy, equal⟩ := c.enqueue_cases task
          · have quiet : s.isRunning id = false := by
              rw [isRunning_of_found found]
              simp [Context.inProgress, idle]
            rw [callsBy_of_idle quiet, List.append_nil]
            simp only [Option.elim_some, Context.apply, equal]
          · have runs : s.isRunning id = true := by
              rw [isRunning_of_found found]
              simpa [Context.inProgress] using Nat.pos_of_ne_zero busy
            simp [callsBy, made, runs, Context.apply, equal]
        | giveUp activity => simp [endedBy, activity, Activity.ended?] at ends
        | collect activity => simp [endedBy, activity, Activity.ended?] at ends

/-! ## Who can move -/

theorem queue_foldl_begin (s : State) (activities : List Activity) :
    (activities.foldl begin s).queue = s.queue ++ List.range' s.taskCount activities.length := by
  induction activities generalizing s with
  | nil => simp
  | cons a activities inductionHypothesis =>
    rw [List.foldl_cons, inductionHypothesis]
    simp [State.begin, List.range'_succ]

theorem queue_advance {s : State} {task : TaskId} {a : Activity}
    (activity : s.activity? task = some a) :
    (s.advance task).queue =
      (s.follow task (s.turn task a).next).queue ++
        List.range' s.taskCount (s.turn task a).started.length ++
        (s.turn task a).woken.filter (s.advance task).hasTask := by
  have same := sameTasks_turn s task a
  have follows : ((s.turn task a).state.follow task (s.turn task a).next).queue =
      (s.follow task (s.turn task a).next).queue := by
    cases (s.turn task a).next with
    | ready b => exact same.queue
    | ended answer | parked b => exact congrArg (·.erase task) same.queue
  have present : (s.advance task).hasTask = ((s.turn task a).started.foldl begin
      ((s.turn task a).state.follow task (s.turn task a).next)).hasTask := by
    funext other
    rw [advance_eq activity, hasTask, tasks_foldl_wake]
    rfl
  rw [present, advance_eq activity, queue_foldl_wake, queue_foldl_begin, follows, taskCount_follow,
    same.taskCount]

theorem hasTask_foldl_begin (s : State) (activities : List Activity) {task : TaskId}
    (begins : task ∈ List.range' s.taskCount activities.length) :
    (activities.foldl begin s).hasTask task = true := by
  induction activities generalizing s with
  | nil => cases begins
  | cons a activities inductionHypothesis =>
    rw [List.length_cons, List.range'_succ, List.mem_cons] at begins
    obtain rfl | later := begins
    · rw [List.foldl_cons, hasTask_eq, activity?_foldl_begin _ _ (Nat.lt_succ_self s.taskCount),
        activity?_begin]
      simp
    · exact inductionHypothesis (s.begin a) later

theorem mem_queue_follow {s : State} (once : s.queue.Nodup) {task other : TaskId} {next : Next}
    (member : other ∈ (s.follow task next).queue) :
    other ∈ s.queue ∧ (other = task → next.activity?.isSome = true) := by
  cases next with
  | ready a => exact ⟨member, fun _ => rfl⟩
  | ended answer | parked a =>
    obtain ⟨differs, inside⟩ := (List.Nodup.mem_erase_iff once).mp member
    exact ⟨inside, fun equal => absurd equal differs⟩

theorem sublist_queue_follow (s : State) (task : TaskId) (next : Next) :
    (s.follow task next).queue.Sublist s.queue := by
  cases next with
  | ready a => exact List.Sublist.refl _
  | ended answer | parked a => exact List.erase_sublist

/-- What becomes of a queue: some of those that were in it stay, then come tasks that begin, then
those that are woken and have not ended. -/
structure Requeued (s other : State) (woken kept begun : List TaskId) : Prop where
  queue : other.queue = kept ++ begun ++ woken.filter other.hasTask
  fewer : kept.Sublist s.queue
  begunOnce : begun.Nodup
  new : ∀ task ∈ begun, s.taskCount ≤ task
  live : ∀ task ∈ kept ++ begun, other.hasTask task = true

theorem requeued_of_same {s other : State} (orderly : s.Orderly) (queue : other.queue = s.queue)
    (tasks : other.tasks = s.tasks) : Requeued s other [] s.queue [] := by
  refine ⟨by simp [queue], List.Sublist.refl _, List.nodup_nil, by simp, ?_⟩
  intro task member
  rw [List.append_nil] at member
  rw [hasTask, tasks]
  exact orderly.queued task member

theorem requeued_foldl_begin {s other : State} (orderly : s.Orderly) (roster : s.Roster)
    (activities : List Activity) (queue : other.queue = s.queue) (tasks : other.tasks = s.tasks)
    (taskCount : other.taskCount = s.taskCount) :
    Requeued s (activities.foldl begin other) [] s.queue
      (List.range' s.taskCount activities.length) := by
  refine ⟨by simp [queue_foldl_begin, queue, taskCount], List.Sublist.refl _, List.nodup_range',
    fun task member => (List.mem_range'_1.mp member).1, ?_⟩
  intro task member
  obtain before | new := List.mem_append.mp member
  · have has := orderly.queued task before
    have old : task < other.taskCount := by
      rw [taskCount]
      exact roster.lt_taskCount has
    rw [hasTask_eq, activity?_foldl_begin other activities old, ← hasTask_eq, hasTask, tasks]
    exact has
  · exact hasTask_foldl_begin other activities (by rw [taskCount]; exact new)

theorem requeued_advance {s : State} (orderly : s.Orderly) (roster : s.Roster) {moved : TaskId}
    {a : Activity} (activity : s.activity? moved = some a) :
    Requeued s (s.advance moved) (s.turn moved a).woken
      (s.follow moved (s.turn moved a).next).queue
      (List.range' s.taskCount (s.turn moved a).started.length) := by
  refine ⟨queue_advance activity, sublist_queue_follow _ _ _, List.nodup_range',
    fun task begins => (List.mem_range'_1.mp begins).1, ?_⟩
  intro task member
  have same := sameTasks_turn s moved a
  obtain stays | begins := List.mem_append.mp member
  · obtain ⟨inside, goesOn⟩ := mem_queue_follow orderly.once stays
    have has := orderly.queued task inside
    rw [hasTask_eq, activity?_advance activity (roster.lt_taskCount has)]
    split
    next equal => exact goesOn equal.symm
    next => rw [← hasTask_eq]; exact has
  · rw [advance_eq activity, hasTask, tasks_foldl_wake]
    refine hasTask_foldl_begin _ _ ?_
    rw [taskCount_follow, same.taskCount]
    exact begins

theorem requeued_cancel {s : State} (orderly : s.Orderly) (task : TaskId) :
    Requeued s (s.cancel task) [] (s.queue.erase task) [] := by
  refine ⟨by simp [cancel, dropTask], List.erase_sublist, List.nodup_nil, by simp, ?_⟩
  intro other member
  rw [List.append_nil] at member
  obtain ⟨differs, inside⟩ := (List.Nodup.mem_erase_iff orderly.once).mp member
  rw [hasTask_eq, cancel, activity?_dropTask, if_neg (Ne.symm differs), ← hasTask_eq]
  exact orderly.queued other inside

theorem requeued_release {s : State} (orderly : s.Orderly) (gate : GateId) :
    Requeued s (s.release gate) (s.heldBy gate) s.queue [] := by
  have same := tasks_script s fun r => r.release gate
  have present : (s.release gate).hasTask = (s.script fun r => r.release gate).hasTask := by
    funext other
    simp only [release, hasTask, tasks_foldl_wake]
  refine ⟨?_, List.Sublist.refl _, List.nodup_nil, by simp, ?_⟩
  · rw [present, List.append_nil, ← same.queue]
    exact queue_foldl_wake _ _
  · intro other member
    rw [List.append_nil] at member
    rw [present, hasTask, same.tasks]
    exact orderly.queued other member

theorem requeued_after {s : State} (orderly : s.Orderly) (roster : s.Roster) (e : Event) :
    ∃ kept begun, Requeued s (s.after e) (s.wokenBy e) kept begun := by
  cases e with
  | advance moved =>
    cases activity : s.activity? moved with
    | some a =>
      have woken : s.wokenBy (.advance moved) = (s.turn moved a).woken := by
        simp [wokenBy, activity]
      rw [woken]
      exact ⟨_, _, requeued_advance orderly roster activity⟩
    | none =>
      refine ⟨s.queue.erase moved, [], ?_⟩
      simp only [after, advance, wokenBy, activity]
      refine ⟨by simp [park], List.erase_sublist, List.nodup_nil, by simp, ?_⟩
      intro task member
      rw [List.append_nil] at member
      exact orderly.queued task (List.mem_of_mem_erase member)
  | perform operation =>
    exact ⟨_, _, requeued_foldl_begin orderly roster [operation.activity] rfl rfl rfl⟩
  | run id =>
    have same := sameTasks_startInvocation s id
    exact ⟨_, _, requeued_foldl_begin orderly roster (s.startInvocation id).2 same.queue same.tasks
      same.taskCount⟩
  | assign id file reparse =>
    have same := sameTasks_assignMainFile s id file reparse
    exact ⟨_, _, requeued_of_same orderly same.queue same.tasks⟩
  | cancel task => exact ⟨_, _, requeued_cancel orderly task⟩
  | instruct instruction =>
    have same := tasks_script s fun r => r.follow instruction
    exact ⟨_, _, requeued_of_same orderly same.queue same.tasks⟩
  | release gate => exact ⟨_, _, requeued_release orderly gate⟩
  | surround files now => exact ⟨s.queue, [], requeued_of_same orderly rfl rfl⟩

/-! ## Who is woken -/

theorem wokenBy_of_endedBy {s : State} {id : ContextId} {e : Event} (ends : endedBy id s e ≠ []) :
    s.wokenBy e = s.waitersOf id := by
  cases e with
  | advance task =>
    simp only [endedBy] at ends
    split at ends
    next ending =>
      obtain ⟨a, activity, ending⟩ := Option.bind_eq_some_iff.mp ending
      simp only [wokenBy, activity, Option.map_some, Option.getD_some]
      exact (turn_of_ended? s task ending).2.2
    next => exact absurd rfl ends
  | _ => exact absurd rfl ends

theorem wokenBy_advance (s : State) (task : TaskId) :
    s.wokenBy (.advance task) = [] ∨ ∃ id, endedBy id s (.advance task) ≠ [] := by
  cases activity : s.activity? task with
  | none => exact .inl (by simp [wokenBy, activity])
  | some a =>
    simp only [wokenBy, activity, Option.map_some, Option.getD_some]
    have kind := outline s task a
    generalize (s.turn task a).next = next, (s.turn task a).started = started,
      (s.turn task a).woken = woken at kind ⊢
    cases kind with
    | launches _ _ | requests | calls _ | passes _ _ _ _ => exact .inl rfl
    | @ends _ id _ ending _ => exact .inr ⟨id, by simp [endedBy, activity, ending]⟩

theorem mem_heldBy {s : State} (roster : s.Roster) {gate : GateId} {task : TaskId}
    (held : task ∈ s.heldBy gate) :
    task ∉ s.queue ∧ ∃ id reply, s.activity? task = some (.collect id reply) := by
  simp only [heldBy, List.mem_map, List.mem_filter, Bool.and_eq_true] at held
  obtain ⟨t, ⟨member, collects, away⟩, rfl⟩ := held
  refine ⟨by simpa using away, ?_⟩
  have activity : s.activity? t.1 = some t.2 := (activity?_eq_some_iff roster).mpr member
  cases shape : t.2 with
  | collect id reply => exact ⟨id, reply, by rw [activity, shape]⟩
  | _ => rw [shape] at collects; cases collects

/-- A task that is woken was not in the queue; if it waited, then for an invocation that ends. -/
theorem mem_wokenBy {s : State} (orderly : s.Orderly) (roster : s.Roster) {e : Event}
    {task : TaskId} (woken : task ∈ s.wokenBy e) :
    task ∉ s.queue ∧ task < s.taskCount ∧
      ∀ id, task ∈ s.waitersOf id → endedBy id s e ≠ [] := by
  cases e with
  | advance moved =>
    obtain nobody | ⟨id, ends⟩ := s.wokenBy_advance moved
    · rw [nobody] at woken
      cases woken
    · rw [wokenBy_of_endedBy ends] at woken
      refine ⟨orderly.parked id task woken, orderly.known id task woken, fun other waits => ?_⟩
      rw [orderly.apart other id task waits woken]
      exact ends
  | release gate =>
    -- A gate holds back tasks that carry an invocation, and those do not wait.
    obtain ⟨away, id, reply, activity⟩ := mem_heldBy roster woken
    refine ⟨away, roster.number_lt activity, fun other waits => ?_⟩
    cases orderly.plain other task waits _ activity
  | _ => cases woken

theorem nodup_wokenBy {s : State} (orderly : s.Orderly) (roster : s.Roster) (e : Event) :
    (s.wokenBy e).Nodup := by
  cases e with
  | advance moved =>
    obtain nobody | ⟨id, ends⟩ := s.wokenBy_advance moved
    · rw [nobody]
      exact List.nodup_nil
    · rw [wokenBy_of_endedBy ends]
      exact orderly.calledOnce id
  | release gate => exact roster.distinct.sublist (List.filter_sublist.map _)
  | _ => exact List.nodup_nil

/-! ## Every event keeps the order -/

/-- A call is made by a task that can move; afterwards it cannot, and carries no invocation. -/
theorem mem_callsBy {s : State} (orderly : s.Orderly) (roster : s.Roster) {e : Event}
    {id : ContextId} {task : TaskId} (calls : task ∈ callsBy id s e) :
    e = .advance task ∧ task ∉ (s.after e).queue ∧ s.wokenBy e = [] ∧
      ∃ a after, s.activity? task = some a ∧ a.awaited? = some (id, after) ∧
        (s.after e).activity? task = some after := by
  cases e with
  | advance moved =>
    simp only [callsBy] at calls
    split at calls
    next made =>
      rw [List.mem_singleton] at calls
      subst calls
      cases touches_of_contextChange? made.1 with
      | @call _ a after activity awaits =>
        obtain ⟨next, started, woken⟩ := turn_of_awaited? s task awaits
        have parks : (s.turn task a).next = .parked after := by
          rw [next, nextAfterCall, if_pos made.2]
        have old : task < s.taskCount := roster.number_lt activity
        refine ⟨rfl, ?_, by simp [wokenBy, activity, woken], a, after, activity, awaits, ?_⟩
        · simp only [State.after]
          rw [queue_advance activity, parks, started, woken, List.length_nil, List.range'_zero,
            List.append_nil, List.filter_nil, List.append_nil]
          exact orderly.once.not_mem_erase
        · rw [State.after, activity?_advance activity old, if_pos rfl, parks]
          rfl
    next => cases calls
  | _ => cases calls

theorem eq_of_mem_callsBy {s : State} {e : Event} {id other : ContextId} {task : TaskId}
    (calls : task ∈ callsBy id s e) (others : task ∈ callsBy other s e) : id = other := by
  cases e with
  | advance moved =>
    simp only [callsBy] at calls others
    split at calls
    next made =>
      split at others
      next same =>
        cases touches_of_contextChange? made.1 with
        | call activity awaits =>
          cases touches_of_contextChange? same.1 with
          | call known waits =>
            rw [activity] at known
            cases known
            rw [awaits] at waits
            cases waits
            rfl
      next => cases others
    next => cases calls
  | _ => cases calls

theorem nodup_callsBy (s : State) (id : ContextId) (e : Event) : (callsBy id s e).Nodup := by
  unfold callsBy
  split
  · split
    · exact List.nodup_singleton _
    · exact List.nodup_nil
  · exact List.nodup_nil

/-- Who waits after an event waited before, without being moved, or has just queued up. -/
theorem mem_waitersOf_after {s : State} {e : Event} {id : ContextId} {task : TaskId}
    (waits : task ∈ (s.after e).waitersOf id) :
    (task ∈ s.waitersOf id ∧ endedBy id s e = []) ∨ task ∈ callsBy id s e := by
  rw [waitersOf_after] at waits
  split at waits
  next goesOn =>
    obtain before | calls := List.mem_append.mp waits
    · exact .inl ⟨before, goesOn⟩
    · exact .inr calls
  next => cases waits

/-- Those who wait stay out of the queue until the invocation ends. -/
theorem not_mem_queue_after_of_waits {s : State} (orderly : s.Orderly) (roster : s.Roster)
    {e : Event} {id : ContextId} {task : TaskId} (waits : task ∈ s.waitersOf id)
    (goesOn : endedBy id s e = []) : task ∉ (s.after e).queue := by
  obtain ⟨kept, begun, requeued⟩ := requeued_after orderly roster e
  rw [requeued.queue]
  intro member
  obtain member | woken := List.mem_append.mp member
  · obtain stays | begins := List.mem_append.mp member
    · exact orderly.parked id task waits (requeued.fewer.subset stays)
    · exact absurd (requeued.new task begins) (Nat.not_le.mpr (orderly.known id task waits))
  · exact (mem_wokenBy orderly roster (List.mem_of_mem_filter woken)).2.2 id waits goesOn

/-- Those who wait stay as they are unless they are dropped. -/
theorem activity?_after_of_waits {s : State} (orderly : s.Orderly) {e : Event}
    (allowed : s.Allows e) {id : ContextId} {task : TaskId} (waits : task ∈ s.waitersOf id)
    (notDropped : e ≠ .cancel task) : (s.after e).activity? task = s.activity? task := by
  refine activity?_after (orderly.known id task waits) ?_ notDropped
  rintro rfl
  exact orderly.parked id task waits allowed

/-- Those who stay, those who are new and those who are woken are different tasks. -/
theorem nodup_queue_after {s : State} (orderly : s.Orderly) (roster : s.Roster) {e : Event}
    {kept begun : List TaskId} (requeued : Requeued s (s.after e) (s.wokenBy e) kept begun) :
    (s.after e).queue.Nodup := by
  rw [requeued.queue]
  have keptOnce : kept.Nodup := orderly.once.sublist requeued.fewer
  have wokenOnce : ((s.wokenBy e).filter (s.after e).hasTask).Nodup :=
    (nodup_wokenBy orderly roster e).filter _
  refine List.nodup_append.mpr ⟨List.nodup_append.mpr ⟨keptOnce, requeued.begunOnce, ?_⟩,
    wokenOnce, ?_⟩
  · rintro task stays other begins rfl
    have old := roster.lt_taskCount (orderly.queued task (requeued.fewer.subset stays))
    exact absurd (requeued.new task begins) (Nat.not_le.mpr old)
  · rintro task member other woken rfl
    obtain ⟨away, old, -⟩ := mem_wokenBy orderly roster (List.mem_of_mem_filter woken)
    obtain stays | begins := List.mem_append.mp member
    · exact away (requeued.fewer.subset stays)
    · exact absurd (requeued.new task begins) (Nat.not_le.mpr old)

theorem invocation?_after_of_waits {s : State} (orderly : s.Orderly) (roster : s.Roster)
    {e : Event} (allowed : s.Allows e) {id : ContextId} {task : TaskId}
    (waits : task ∈ (s.after e).waitersOf id) {b : Activity}
    (activity : (s.after e).activity? task = some b) : b.invocation? = none := by
  obtain ⟨before, -⟩ | calls := mem_waitersOf_after waits
  · by_cases dropped : e = .cancel task
    · subst dropped
      have gone := hasTask_cancel s task
      rw [hasTask_eq, activity] at gone
      cases gone
    · rw [activity?_after_of_waits orderly allowed before dropped] at activity
      exact orderly.plain id task before b activity
  · obtain ⟨-, -, -, a, after, -, awaits, now⟩ := mem_callsBy orderly roster calls
    rw [activity] at now
    cases now
    exact (invocation?_of_awaited? awaits).2

/-- Every event that can happen keeps the order. -/
theorem Orderly.after {s : State} (orderly : s.Orderly) (roster : s.Roster) {e : Event}
    (allowed : s.Allows e) : (s.after e).Orderly := by
  obtain ⟨kept, begun, requeued⟩ := requeued_after orderly roster e
  constructor
  case queued =>
    intro task member
    rw [requeued.queue] at member
    obtain member | woken := List.mem_append.mp member
    · exact requeued.live task member
    · exact (List.mem_filter.mp woken).2
  case once => exact nodup_queue_after orderly roster requeued
  case parked =>
    intro id task waits
    obtain ⟨before, goesOn⟩ | calls := mem_waitersOf_after waits
    · exact not_mem_queue_after_of_waits orderly roster before goesOn
    · exact (mem_callsBy orderly roster calls).2.1
  case known =>
    intro id task waits
    refine Nat.lt_of_lt_of_le ?_ (taskCount_le_after s e)
    obtain ⟨before, -⟩ | calls := mem_waitersOf_after waits
    · exact orderly.known id task before
    · obtain ⟨-, -, -, a, -, activity, -⟩ := mem_callsBy orderly roster calls
      exact roster.number_lt activity
  case plain =>
    exact fun id task waits b activity =>
      invocation?_after_of_waits orderly roster allowed waits activity
  case calledOnce =>
    intro id
    rw [waitersOf_after]
    split
    · refine List.nodup_append.mpr ⟨orderly.calledOnce id, nodup_callsBy s id e, ?_⟩
      rintro task before other calls rfl
      obtain ⟨rfl, -⟩ := mem_callsBy orderly roster calls
      exact orderly.parked id task before allowed
    · exact List.nodup_nil
  case apart =>
    intro id other task waits others
    obtain ⟨before, -⟩ | calls := mem_waitersOf_after waits <;>
      obtain ⟨same, -⟩ | called := mem_waitersOf_after others
    · exact orderly.apart id other task before same
    · obtain ⟨rfl, -⟩ := mem_callsBy orderly roster called
      exact absurd allowed (orderly.parked id task before)
    · obtain ⟨rfl, -⟩ := mem_callsBy orderly roster calls
      exact absurd allowed (orderly.parked other task same)
    · exact eq_of_mem_callsBy calls called

theorem Orderly.afterAll {s : State} (orderly : s.Orderly) (roster : s.Roster) {es : List Event}
    (possible : s.Possible es) : (s.afterAll es).Orderly := by
  have step : ∀ s e, Roster s ∧ Orderly s → s.Allows e → Roster (s.after e) ∧ Orderly (s.after e) :=
    fun s e both allowed => ⟨both.1.after e, both.2.after both.1 allowed⟩
  exact (afterAll_induction (fun s => s.Roster ∧ s.Orderly) step ⟨roster, orderly⟩ possible).2

end State

end PawnQuery.Engine
