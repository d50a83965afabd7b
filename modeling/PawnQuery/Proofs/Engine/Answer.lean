import PawnQuery.Proofs.Engine.Queue

/-!
# Answers

A task answers with its last section and never again, and an answer that was given stays.
-/

namespace PawnQuery.Engine

namespace State

/-- The answer that an event gives, with the number of the task that it comes from. -/
def answersBy (s : State) : Event → List (TaskId × Answer)
  | .advance task =>
    match (s.activity? task).map fun a => (s.turn task a).next with
    | some (.ended answer) => [(task, answer)]
    | _ => []
  | _ => []

theorem answers_foldl_begin (s : State) (activities : List Activity) :
    (activities.foldl begin s).answers = s.answers := by
  induction activities generalizing s with
  | nil => rfl
  | cons a activities inductionHypothesis => rw [List.foldl_cons, inductionHypothesis]; rfl

theorem answers_foldl_wake (s : State) (woken : List TaskId) :
    (woken.foldl wake s).answers = s.answers := by
  rw [foldl_wake]

theorem answers_after (s : State) (e : Event) :
    (s.after e).answers = s.answers ++ s.answersBy e := by
  cases e with
  | advance task =>
    simp only [after, answersBy]
    cases activity : s.activity? task with
    | none => simp [advance, activity, park]
    | some a =>
      have same := sameTasks_turn s task a
      rw [advance_eq activity, answers_foldl_wake, answers_foldl_begin, Option.map_some]
      cases goes : (s.turn task a).next with
      | ended answer =>
        simp only [follow, finish]
        exact congrArg (· ++ [(task, answer)]) same.answers
      | ready b | parked b =>
        simp only [follow, List.append_nil]
        exact same.answers
  | perform operation => simp [after, perform, State.begin, answersBy]
  | run id =>
    have same := sameTasks_startInvocation s id
    simp only [after, run, answersBy, List.append_nil]
    exact (answers_foldl_begin _ _).trans same.answers
  | assign id file reparse =>
    simp only [after, answersBy, List.append_nil]
    exact (sameTasks_assignMainFile s id file reparse).answers
  | cancel task => simp [after, cancel, dropTask, answersBy]
  | instruct instruction =>
    simp only [after, answersBy, List.append_nil]
    exact (tasks_script s _).answers
  | release gate =>
    simp only [after, release, answersBy, List.append_nil]
    exact (answers_foldl_wake _ _).trans (tasks_script s _).answers
  | surround files now => simp [after, answersBy]

theorem eq_advance_of_mem_answersBy {s : State} {e : Event} {given : TaskId × Answer}
    (gives : given ∈ s.answersBy e) :
    e = .advance given.1 ∧ ∃ a, s.activity? given.1 = some a ∧
      (s.turn given.1 a).next = .ended given.2 := by
  cases e with
  | advance task =>
    simp only [answersBy] at gives
    split at gives
    next answer goes =>
      obtain rfl := List.mem_singleton.mp gives
      exact ⟨rfl, Option.map_eq_some_iff.mp goes⟩
    next => cases gives
  | _ => cases gives

theorem answer?_eq_find?_append (s : State) (e : Event) (task : TaskId) :
    (s.after e).answer? task =
      (s.answer? task).or (((s.answersBy e).find? fun a => a.1 == task).map (·.2)) := by
  unfold answer?
  rw [answers_after, List.find?_append, Option.map_or]

theorem answer?_afterAll_of_some {s : State} {task : TaskId} {answer : Answer}
    (answered : s.answer? task = some answer) (es : List Event) :
    (s.afterAll es).answer? task = some answer := by
  induction es generalizing s with
  | nil => exact answered
  | cons e es inductionHypothesis =>
    refine inductionHypothesis ?_
    rw [answer?_eq_find?_append, answered, Option.some_or]

/-- Only the last section of a task answers for it. -/
theorem answer?_after_of_silent {s : State} {e : Event} {task : TaskId}
    (silent : ∀ answer, (task, answer) ∉ s.answersBy e) :
    (s.after e).answer? task = s.answer? task := by
  have nothing : (s.answersBy e).find? (fun a => a.1 == task) = none := by
    refine List.find?_eq_none.mpr fun given gives same => ?_
    obtain rfl : given.1 = task := by simpa using same
    exact silent given.2 gives
  rw [answer?_eq_find?_append, nothing, Option.map_none, Option.or_none]

theorem silent_of_goes {s : State} {task : TaskId} {a b : Activity}
    (activity : s.activity? task = some a) (goes : (s.turn task a).next.activity? = some b)
    (answer : Answer) : (task, answer) ∉ s.answersBy (.advance task) := by
  cases next : (s.turn task a).next with
  | ended given =>
    rw [next] at goes
    cases goes
  | ready c | parked c => simp [answersBy, activity, next]

/-- A task that was dropped does not answer any more. -/
theorem answer?_afterAll_of_ended {s : State} {task : TaskId} (old : task < s.taskCount)
    (ended : s.activity? task = none) (es : List Event) :
    (s.afterAll es).answer? task = s.answer? task := by
  induction es generalizing s with
  | nil => rfl
  | cons e es inductionHypothesis =>
    have silent : ∀ answer, (task, answer) ∉ s.answersBy e := by
      intro answer gives
      obtain ⟨-, a, activity, -⟩ := eq_advance_of_mem_answersBy gives
      rw [ended] at activity
      cases activity
    rw [afterAll_cons, inductionHypothesis (Nat.lt_of_lt_of_le old (taskCount_le_after s e))
      (activity?_after_of_ended old ended e), answer?_after_of_silent silent]

/-- A task that has answered has done so with a section of its own, and what each of its sections
before kept of its activity held then. -/
theorem ended_of_answered {s : State} {es : List Event} {task : TaskId} {a : Activity}
    {answer : Answer} (Invariant : Activity → Prop)
    (keeps : ∀ t a b, Invariant a → (turn t task a).next.activity? = some b → Invariant b)
    (roster : s.Roster) (activity : s.activity? task = some a) (holds : Invariant a)
    (unanswered : s.answer? task = none) (answered : (s.afterAll es).answer? task = some answer) :
    ∃ during later b, es = during ++ .advance task :: later ∧
      (s.afterAll during).activity? task = some b ∧ Invariant b ∧
      ((s.afterAll during).turn task b).next = .ended answer := by
  induction es generalizing s a with
  | nil =>
    rw [afterAll_nil, unanswered] at answered
    cases answered
  | cons e es inductionHypothesis =>
    have old : task < s.taskCount := roster.number_lt activity
    by_cases dropped : e = .cancel task
    · subst dropped
      have gone : (s.after (.cancel task)).activity? task = none :=
        (activity?_dropTask s task task).trans (if_pos rfl)
      have stillOld : task < (s.after (.cancel task)).taskCount := old
      rw [afterAll_cons, answer?_afterAll_of_ended stillOld gone,
        answer?_after_of_silent (by simp [answersBy]), unanswered] at answered
      cases answered
    · by_cases moved : e = .advance task
      · subst moved
        cases goes : (s.turn task a).next with
        | ended given =>
          have answers : (s.after (.advance task)).answer? task = some given := by
            rw [answer?_eq_find?_append, unanswered]
            simp [answersBy, activity, goes]
          rw [afterAll_cons, answer?_afterAll_of_some answers] at answered
          cases answered
          exact ⟨[], es, a, rfl, activity, holds, goes⟩
        | ready b | parked b =>
          have goesOn : (s.turn task a).next.activity? = some b := by rw [goes]; rfl
          have silent := silent_of_goes activity goesOn
          have next : (s.after (.advance task)).activity? task = some b := by
            rw [after, activity?_advance activity old, if_pos rfl]
            exact goesOn
          obtain ⟨during, later, c, rfl, ends⟩ := inductionHypothesis (roster.after _) next
            (keeps s a b holds goesOn) (by rw [answer?_after_of_silent silent]; exact unanswered)
            answered
          exact ⟨.advance task :: during, later, c, rfl, ends⟩
      · have silent : ∀ answer, (task, answer) ∉ s.answersBy e := fun answer gives =>
          moved (eq_advance_of_mem_answersBy gives).1
        obtain ⟨during, later, c, rfl, ends⟩ := inductionHypothesis (roster.after e)
          (by rw [activity?_after old moved dropped]; exact activity) holds
          (by rw [answer?_after_of_silent silent]; exact unanswered) answered
        exact ⟨e :: during, later, c, rfl, ends⟩

/-- A task that does not move does not answer. -/
theorem answer?_afterAll_of_unmoved {s : State} {es : List Event} {task : TaskId}
    (unmoved : ∀ e ∈ es, e ≠ .advance task) : (s.afterAll es).answer? task = s.answer? task := by
  induction es generalizing s with
  | nil => rfl
  | cons e es inductionHypothesis =>
    have silent : ∀ answer, (task, answer) ∉ s.answersBy e := fun answer gives =>
      unmoved e List.mem_cons_self (eq_advance_of_mem_answersBy gives).1
    have unmovedLater : ∀ e ∈ es, e ≠ .advance task := fun e member =>
      unmoved e (List.mem_cons_of_mem _ member)
    rw [afterAll_cons, inductionHypothesis unmovedLater, answer?_after_of_silent silent]

theorem silent_of_asked {s : State} {between : List Event}
    (unanswered : s.answer? s.taskCount = none) (o : Operation)
    (unmoved : ∀ e ∈ between, e ≠ .advance s.taskCount) :
    (s.afterAll (.perform o :: between)).answer? s.taskCount = none :=
  calc ((s.after (.perform o)).afterAll between).answer? s.taskCount
    _ = (s.after (.perform o)).answer? s.taskCount := answer?_afterAll_of_unmoved unmoved
    _ = s.answer? s.taskCount := answer?_after_of_silent (by simp [answersBy])
    _ = none := unanswered

theorem Initial.lt_taskCount_of_answered {s : State} (initial : s.Initial) (es : List Event) :
    ∀ given ∈ (s.afterAll es).answers, given.1 < (s.afterAll es).taskCount := by
  induction es using List.reverseRecOn with
  | nil => simp [initial.answers]
  | append_singleton es e inductionHypothesis =>
    rw [afterAll_append, afterAll_cons, afterAll_nil, answers_after]
    intro given member
    refine Nat.lt_of_lt_of_le ?_ (taskCount_le_after _ e)
    obtain before | gives := List.mem_append.mp member
    · exact inductionHypothesis given before
    · obtain ⟨-, a, activity, -⟩ := eq_advance_of_mem_answersBy gives
      exact (initial.roster.afterAll es).number_lt activity

theorem answer?_eq_none_of_le {s : State} {task : TaskId}
    (older : ∀ given ∈ s.answers, given.1 < s.taskCount) (new : s.taskCount ≤ task) :
    s.answer? task = none := by
  unfold answer?
  rw [Option.map_eq_none_iff, List.find?_eq_none]
  intro given member same
  have number : given.1 = task := by simpa using same
  exact absurd (Nat.lt_of_lt_of_le (older given member) new) (by rw [number]; exact Nat.lt_irrefl _)

theorem Initial.answer?_taskCount {s : State} (initial : s.Initial) (es : List Event) :
    (s.afterAll es).answer? (s.afterAll es).taskCount = none :=
  answer?_eq_none_of_le (initial.lt_taskCount_of_answered es) (Nat.le_refl _)

end State

end PawnQuery.Engine
