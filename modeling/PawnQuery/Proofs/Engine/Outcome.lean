import Mathlib.Logic.Relation
import PawnQuery.Proofs.Engine.Balance
import PawnQuery.Proofs.Engine.Effort
import PawnQuery.Proofs.Registry.Lookup

/-!
# What an operation comes to on every schedule

Whoever asks for an operation takes up its answer once it is there, or any time later; until then
tasks move in some order.  An operation yields something if every order leads to an answer and the
answer is right wherever it is taken up.  As long as the compiler holds nothing back, every task can
move or waits for the end of an invocation; so when nothing can move any more all tasks have ended,
and an operation that nobody drops has been answered.
-/

namespace PawnQuery.Engine

open PawnQuery.Compiler (Backend Invocation Replay)
open PawnQuery.Files (FileTree)

/-- The compiler answers every invocation at once and lets it end. -/
def NeverHolds (compiler : Backend) : Prop :=
  ∀ files invocation reply, (compiler.spawn files invocation).2 = .ok reply →
    (compiler.spawn files invocation).1.isOpen reply.gate = true

/-- Nothing decides whether a replaying compiler holds invocations back but its gate. -/
theorem neverHolds_replay_iff {r : Replay} :
    NeverHolds (.replay r) ↔ (r.refusal = none → r.isOpen r.gate = true) := by
  have spawned : ∀ files i, Backend.spawn (.replay r) files i =
      (.replay (r.spawn i).1, (r.spawn i).2) := fun _ _ => rfl
  unfold NeverHolds
  simp only [spawned, Replay.spawn]
  cases r.refusal with
  | some reason => simp
  | none =>
    refine ⟨fun opens _ => opens {} default _ rfl, fun opens files i reply replies => ?_⟩
    cases replies
    exact opens rfl

instance : (compiler : Backend) → Decidable (NeverHolds compiler)
  | .program _ => .isTrue fun _ _ _ _ => rfl
  | .replay _ => decidable_of_iff _ neverHolds_replay_iff.symm

theorem NeverHolds.spawn {compiler : Backend} (holds : NeverHolds compiler) (files : FileTree)
    (i : Invocation) : NeverHolds (compiler.spawn files i).1 := by
  cases compiler with
  | program executable => exact holds
  | replay r =>
    have same : (r.spawn i).1 = { r with history := i :: r.history } := by
      unfold Replay.spawn
      cases r.refusal <;> rfl
    have after : (Backend.spawn (.replay r) files i).1 = .replay (r.spawn i).1 := rfl
    have opens := neverHolds_replay_iff.mp holds
    rw [after, same, neverHolds_replay_iff]
    exact opens

namespace State

variable {s : State} {task other : TaskId} {a : Activity}

/-! ## What holds of every state of a run -/

/-- What holds of the tasks and the tables after every run. -/
structure InOrder (s : State) : Prop where
  roster : s.Roster
  orderly : s.Orderly
  steady : s.Steady
  keyed : s.registry.Keyed
  bounded : s.Bounded
  answered : ∀ given ∈ s.answers, given.1 < s.taskCount

theorem Initial.inOrder (initial : s.Initial) : s.InOrder :=
  ⟨initial.roster, initial.orderly, initial.steady, initial.keyed, initial.bounded,
    by simp [initial.answers]⟩

theorem InOrder.after (inOrder : s.InOrder) {e : Event} (allowed : s.Allows e) :
    (s.after e).InOrder := by
  refine ⟨inOrder.roster.after e, inOrder.orderly.after inOrder.roster allowed,
    inOrder.steady.after inOrder.roster allowed, keyed_afterAll inOrder.keyed [e],
    inOrder.bounded.after inOrder.roster e, fun given member => ?_⟩
  rw [answers_after] at member
  refine Nat.lt_of_lt_of_le ?_ (taskCount_le_after s e)
  obtain before | gives := List.mem_append.mp member
  · exact inOrder.answered given before
  · obtain ⟨-, a, activity, -⟩ := eq_advance_of_mem_answersBy gives
    exact inOrder.roster.number_lt activity

theorem InOrder.of_reaches (inOrder : s.InOrder) {later : State} (reaches : s.Reaches later) :
    later.InOrder := by
  obtain ⟨es, possible, rfl⟩ := reaches
  exact afterAll_induction InOrder (fun _ _ before allowed => before.after allowed) inOrder possible

theorem InOrder.advance (inOrder : s.InOrder) (ready : task ∈ s.queue) :
    (s.advance task).InOrder := by
  have allowed : s.Allows (.advance task) := ready
  exact inOrder.after allowed

theorem InOrder.perform (inOrder : s.InOrder) (o : Operation) : (s.perform o).1.InOrder := by
  have allowed : s.Allows (.perform o) := trivial
  exact inOrder.after allowed

/-! ## Nobody is held back -/

/-- Every task can move or waits for the end of an invocation. -/
def Placed (s : State) : Prop :=
  ∀ task a, s.activity? task = some a → task ∈ s.queue ∨ ∃ id, task ∈ s.waitersOf id

theorem placed_of_tasks_eq_nil (nobody : s.tasks = []) : s.Placed := by
  intro task a activity
  rw [activity?, nobody] at activity
  cases activity

/-- Only a call while an invocation runs keeps a task from moving. -/
theorem calls_of_parked (holds : NeverHolds s.compiler) {b : Activity}
    (parks : (s.turn task a).next = .parked b) :
    ∃ id, a.awaited? = some (id, b) ∧ s.isRunning id = true := by
  have kind := outline s task a
  generalize goes : (s.turn task a).next = next at parks kind
  generalize (s.turn task a).started = started, (s.turn task a).woken = woken at kind
  cases kind with
  | @launches id invocation _ _ _ _ =>
    subst parks
    simp only [turn, launch] at goes
    cases spawned : s.compiler.spawn s.files invocation with
    | mk compiler outcome =>
      cases outcome with
      | error fault => simp [spawned] at goes
      | ok reply =>
        have opens := holds s.files invocation reply (by rw [spawned])
        rw [spawned] at opens
        simp [spawned, opens] at goes
  | @calls _ after id awaits =>
    unfold nextAfterCall at parks
    split at parks
    next running =>
      cases parks
      exact ⟨id, awaits, running⟩
    next => cases parks
  | ends _ plain | passes _ _ _ plain =>
    subst parks
    cases plain
  | requests => cases parks

/-- A task that moves can move again, or it comes to wait for the end of an invocation. -/
theorem placed_of_moves (holds : NeverHolds s.compiler) (ready : task ∈ s.queue)
    (activity : s.activity? task = some a) {b : Activity}
    (goes : (s.turn task a).next.activity? = some b) :
    task ∈ (s.advance task).queue ∨ ∃ id, task ∈ (s.advance task).waitersOf id := by
  cases next : (s.turn task a).next with
  | ended answer =>
    rw [next] at goes
    cases goes
  | ready c =>
    refine .inl ?_
    rw [queue_advance activity, next, List.append_assoc]
    exact List.mem_append_left _ ready
  | parked c =>
    obtain ⟨id, awaits, running⟩ := calls_of_parked holds next
    refine .inr ⟨id, ?_⟩
    have made := contextChange?_of_touches (.call activity awaits)
    have quiet : endedBy id s (.advance task) = [] := by
      have plain := ended?_of_invocation? (invocation?_of_awaited? awaits).1
      simp [endedBy, activity, plain]
    have waiting := waitersOf_after s (.advance task) id
    rw [if_pos quiet] at waiting
    have calls : callsBy id s (.advance task) = [task] := if_pos ⟨made, running⟩
    rw [calls] at waiting
    exact waiting ▸ List.mem_append_right _ (List.mem_singleton_self task)

/-- A task that is in the queue stays there until it moves, and one that waits stays where it is or
can move again. -/
theorem placed_of_stays (roster : s.Roster) {moved : TaskId} (ready : moved ∈ s.queue)
    (orderly : s.Orderly) (elsewhere : task ≠ moved) (activity : s.activity? task = some a)
    (placed : task ∈ s.queue ∨ ∃ id, task ∈ s.waitersOf id) :
    task ∈ (s.advance moved).queue ∨ ∃ id, task ∈ (s.advance moved).waitersOf id := by
  obtain ⟨b, moves⟩ := orderly.exists_activity? ready
  obtain queued | ⟨id, waits⟩ := placed
  · refine .inl ?_
    rw [queue_advance moves, List.append_assoc]
    refine List.mem_append_left _ ?_
    cases (s.turn moved b).next with
    | ready c => exact queued
    | ended answer | parked c => exact (List.mem_erase_of_ne elsewhere).mpr queued
  · have waiting := waitersOf_after s (.advance moved) id
    by_cases ends : endedBy id s (.advance moved) = []
    · rw [if_pos ends] at waiting
      exact .inr ⟨id, waiting ▸ List.mem_append_left _ waits⟩
    · have woken := wokenBy_of_endedBy ends
      simp only [wokenBy, moves, Option.map_some, Option.getD_some] at woken
      refine .inl ?_
      rw [queue_advance moves, woken]
      refine List.mem_append_right _ (List.mem_filter.mpr ⟨waits, ?_⟩)
      have still := activity?_advance moves (roster.number_lt activity)
      rw [if_neg (Ne.symm elsewhere), activity] at still
      rw [hasTask_eq, still]
      rfl

theorem mem_queue_of_begunBy (roster : s.Roster) {id : ContextId} {e : Event}
    (begins : begunBy id s e = [s.taskCount]) : s.taskCount ∈ (s.after e).queue := by
  obtain ⟨c, invocation, found, -, equal, made, -⟩ := activity?_of_begunBy roster begins
  have started : (s.startInvocation id).2 = [.launch id invocation] := by
    simp only [startInvocation, found, equal]
  cases touches_of_contextChange? made with
  | run =>
    have same := sameTasks_startInvocation s id
    simp only [State.after, State.run, started, queue_foldl_begin, List.length_singleton,
      same.taskCount]
    exact List.mem_append_right _ (by simp)
  | @request task rest added activity =>
    have one : (s.turn task (.request id rest added)).started.length = 1 :=
      congrArg List.length started
    rw [State.after, queue_advance activity, one]
    exact List.mem_append_left _ (List.mem_append_right _ (by simp))

theorem Placed.advance (placed : s.Placed) (inOrder : s.InOrder) (holds : NeverHolds s.compiler)
    {moved : TaskId} (ready : moved ∈ s.queue) : (s.advance moved).Placed := by
  intro task b activity
  have course : Course s (.advance moved) task b := course inOrder.roster activity
  cases course with
  | stays elsewhere before =>
    have differs : task ≠ moved := fun same => elsewhere (by rw [same])
    exact placed_of_stays inOrder.roster ready inOrder.orderly differs before (placed task b before)
  | moves before goes => exact placed_of_moves holds ready before goes
  | begins begins => exact .inl (mem_queue_of_begunBy inOrder.roster begins)

theorem Placed.of_asked (placed : s.Placed) (roster : s.Roster) {e : Event}
    (outside : ∀ task, e ≠ .advance task) (kept : s.queue.Sublist (s.after e).queue) :
    (s.after e).Placed := by
  intro task b activity
  have course : Course s e task b := course roster activity
  cases course with
  | stays _ before =>
    obtain queued | ⟨id, waits⟩ := placed task b before
    · exact .inl (kept.subset queued)
    · have goesOn : endedBy id s e = [] := by
        cases e with
        | advance moved => exact absurd rfl (outside moved)
        | _ => rfl
      have waiting := waitersOf_after s e id
      rw [if_pos goesOn] at waiting
      exact .inr ⟨id, waiting ▸ List.mem_append_left _ waits⟩
  | moves => exact absurd rfl (outside task)
  | performs => exact .inl (List.mem_append_right _ (List.mem_singleton_self _))
  | begins begins => exact .inl (mem_queue_of_begunBy roster begins)

theorem Placed.perform (placed : s.Placed) (roster : s.Roster) (o : Operation) :
    (s.perform o).1.Placed :=
  placed.of_asked roster (e := .perform o) nofun (List.sublist_append_left _ _)

theorem Placed.run (placed : s.Placed) (roster : s.Roster) (id : ContextId) :
    (s.run id).Placed := by
  refine placed.of_asked roster (e := .run id) nofun ?_
  simp only [State.after, State.run, queue_foldl_begin, (sameTasks_startInvocation s id).queue]
  exact List.sublist_append_left _ _

/-- When nothing can move any more all tasks have ended. -/
theorem Placed.activity?_eq_none (placed : s.Placed) (inOrder : s.InOrder) (rests : s.atRest)
    (task : TaskId) : s.activity? task = none := by
  have waits : ∀ task a, s.activity? task = some a → ∃ id, task ∈ s.waitersOf id := by
    intro task a activity
    refine (placed task a activity).resolve_left fun ready => ?_
    rw [rests] at ready
    exact List.not_mem_nil ready
  by_contra present
  obtain ⟨a, activity⟩ := Option.ne_none_iff_exists'.mp present
  obtain ⟨id, waiting⟩ := waits task a activity
  -- Who waits does so for an invocation, and the task that carries it would have to wait as well.
  have running : s.invocations id ≠ [] := by
    intro nobody
    cases found : s.registry.context? id with
    | none => simp [waitersOf, found] at waiting
    | some c =>
      have idle := (inOrder.steady.isRunning_eq_false_iff).mpr nobody
      rw [isRunning_of_found found] at idle
      rw [waitersOf_of_found found, (inOrder.steady.waiters_eq_nil found
        (by simpa [Context.inProgress] using idle)).1] at waiting
      exact List.not_mem_nil waiting
  obtain ⟨carrier, member⟩ := List.exists_mem_of_ne_nil _ running
  obtain ⟨b, carried, carries⟩ := (mem_invocations inOrder.roster).mp member
  obtain ⟨awaited, waitsToo⟩ := waits carrier b carried
  rw [inOrder.orderly.plain awaited carrier waitsToo b carried] at carries
  cases carries

/-! ## Every operation is answered -/

theorem answered_before {e : Event} {answer : Answer}
    (answered : (s.after e).answer? task = some answer) :
    s.answer? task = some answer ∨ (task, answer) ∈ s.answersBy e := by
  rw [answer?_eq_find?_append] at answered
  cases before : s.answer? task with
  | some given =>
    rw [before, Option.some_or] at answered
    exact .inl answered
  | none =>
    rw [before, Option.none_or] at answered
    obtain ⟨given, found, rfl⟩ := Option.map_eq_some_iff.mp answered
    obtain rfl : given.1 = task := by simpa using List.find?_some found
    exact .inr (List.mem_of_find?_eq_some found)

/-- The task has begun, and it has ended exactly if it has answered. -/
structure Tracked (s : State) (task : TaskId) : Prop where
  begun : task < s.taskCount
  ended : s.activity? task = none ↔ s.answer? task ≠ none

theorem InOrder.tracked_perform (inOrder : s.InOrder) (o : Operation) :
    (s.perform o).1.Tracked s.taskCount := by
  refine ⟨Nat.lt_succ_self _, iff_of_false ?_ ?_⟩
  · have begun : (s.perform o).1.activity? s.taskCount = some o.activity :=
      activity?_begin_new inOrder.roster o.activity
    simp [begun]
  · have silent : s.answer? s.taskCount = none :=
      answer?_eq_none_of_le inOrder.answered (Nat.le_refl _)
    exact fun answered => answered silent

theorem Tracked.advance (tracked : s.Tracked task) {moved : TaskId}
    (activity : s.activity? moved = some a) : (s.advance moved).Tracked task := by
  refine ⟨Nat.lt_of_lt_of_le tracked.begun (taskCount_le_after s (.advance moved)), ?_⟩
  rw [activity?_advance activity tracked.begun]
  by_cases same : moved = task
  · subst same
    have unanswered : s.answer? moved = none := by
      by_contra answered
      rw [tracked.ended.mpr answered] at activity
      cases activity
    have answers := answer?_eq_find?_append s (.advance moved) moved
    simp only [State.after, answersBy, activity, Option.map_some, unanswered, Option.none_or]
      at answers
    rw [if_pos rfl, answers]
    cases (s.turn moved a).next <;> simp [Next.activity?]
  · have silent : ∀ answer, (task, answer) ∉ s.answersBy (.advance moved) := by
      intro answer gives
      have moves := (eq_advance_of_mem_answersBy gives).1
      exact same (Event.advance.inj moves)
    have answers : (s.advance moved).answer? task = s.answer? task :=
      answer?_after_of_silent silent
    rw [if_neg same, answers]
    exact tracked.ended

/-- On every schedule an operation is answered, and wherever its answer is taken up, when it is
given or any time later, the state and the answer are as they should be. -/
structure Yields (s : State) (o : Operation) (post : State → Answer → Prop) : Prop where
  ends : Acc (fun later earlier => Moves earlier later) (s.perform o).1
  answers : ∀ later, Relation.ReflTransGen Moves (s.perform o).1 later → later.atRest →
    ∃ answer, later.answer? s.taskCount = some answer
  holds : ∀ later answer, Relation.ReflTransGen Moves (s.perform o).1 later →
    later.answer? s.taskCount = some answer → post later answer

/-- An invariant of the moves of a program that is never held back decides what an operation
yields. -/
theorem yields_of_invariant {o : Operation} {post : State → Answer → Prop} (inOrder : s.InOrder)
    (placed : s.Placed) (Invariant : State → Prop) (base : Invariant (s.perform o).1)
    (step : ∀ t moved, t.InOrder → Invariant t → moved ∈ t.queue → Invariant (t.advance moved))
    (free : ∀ t, Invariant t → NeverHolds t.compiler)
    (holds : ∀ t answer, t.InOrder → t.Placed → Invariant t → t.activity? s.taskCount = none →
      t.answer? s.taskCount = some answer → post t answer) : s.Yields o post := by
  have begun := inOrder.perform o
  have all : ∀ later, Relation.ReflTransGen Moves (s.perform o).1 later →
      later.InOrder ∧ later.Placed ∧ later.Tracked s.taskCount ∧ Invariant later := by
    intro later reaches
    -- By induction on the moves; that nobody is held back needs the invariant, and the invariant
    -- needs the order of the tasks, so all four go together.
    induction reaches with
    | refl => exact ⟨begun, placed.perform inOrder.roster o, inOrder.tracked_perform o, base⟩
    | tail _ moves inductionHypothesis =>
      obtain ⟨inOrderNow, placedNow, tracked, invariant⟩ := inductionHypothesis
      cases moves with
      | @advance moved ready =>
        obtain ⟨a, activity⟩ := inOrderNow.orderly.exists_activity? ready
        exact ⟨inOrderNow.advance ready, placedNow.advance inOrderNow (free _ invariant) ready,
          tracked.advance activity, step _ moved inOrderNow invariant ready⟩
  refine ⟨acc_moves begun.roster begun.orderly, fun later reaches rests => ?_,
    fun later answer reaches answered => ?_⟩
  · obtain ⟨inOrderNow, placedNow, tracked, -⟩ := all later reaches
    exact Option.ne_none_iff_exists'.mp
      (tracked.ended.mp (placedNow.activity?_eq_none inOrderNow rests s.taskCount))
  · obtain ⟨inOrderNow, placedNow, tracked, invariant⟩ := all later reaches
    have ended := tracked.ended.mpr (by simp [answered])
    exact holds later answer inOrderNow placedNow invariant ended answered

theorem Yields.mono {o : Operation} {post other : State → Answer → Prop} (yields : s.Yields o post)
    (weaker : ∀ later answer, post later answer → other later answer) : s.Yields o other :=
  ⟨yields.ends, yields.answers, fun later answer reaches answered =>
    weaker later answer (yields.holds later answer reaches answered)⟩

/-- First come, first served is one schedule among all. -/
theorem Yields.performAndDrain {o : Operation} {post : State → Answer → Prop}
    (yields : s.Yields o post) (inOrder : s.InOrder) :
    ∃ answer, (s.performAndDrain o).2 = some answer ∧ post (s.performAndDrain o).1 answer := by
  have begun := inOrder.perform o
  have reaches := reflTransGen_drainWithin (s.perform o).1.workLeft (s.perform o).1
  obtain ⟨answer, answered⟩ := yields.answers _ reaches
    (atRest_drain begun.roster begun.orderly begun.bounded)
  exact ⟨answer, answered, yields.holds _ answer reaches answered⟩

/-! ## A compiler that holds nothing back -/

theorem neverHolds_advance (holds : NeverHolds s.compiler) (task : TaskId) :
    NeverHolds (s.advance task).compiler := by
  cases activity : s.activity? task with
  | none =>
    rw [advance, activity]
    exact holds
  | some a =>
    rw [(compiler_advance activity).1]
    cases launches : a.launched? with
    | none =>
      rw [compiler_turn_of_not_launched s task launches]
      exact holds
    | some launched =>
      cases a with
      | launch id invocation =>
        rw [turn, compiler_launch]
        exact holds.spawn s.files invocation
      | _ => cases launches

/-- While the compiler holds nothing back, every operation is answered on every schedule, and this
stays so. -/
theorem yields_of_neverHolds (inOrder : s.InOrder) (placed : s.Placed)
    (holds : NeverHolds s.compiler) (o : Operation) :
    s.Yields o fun later _ => later.InOrder ∧ later.Placed ∧ NeverHolds later.compiler :=
  yields_of_invariant inOrder placed (fun t => NeverHolds t.compiler) holds
    (fun _ moved _ holds _ => neverHolds_advance holds moved) (fun _ holds => holds)
    fun _ _ inOrderNow placedNow holds _ _ => ⟨inOrderNow, placedNow, holds⟩

end State

end PawnQuery.Engine
