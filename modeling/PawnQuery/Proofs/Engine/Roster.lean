import Mathlib.Data.List.Nodup
import PawnQuery.Proofs.Engine.Outline

/-!
# The roster of tasks

Tasks are numbered in the order in which they begin, and every number is given once.  So a task is
known by its number, the tasks that carry an invocation can be told from the numbers alone, and a
task that has ended does not come back.
-/

namespace PawnQuery.Engine

namespace State

/-- Numbers of tasks are different and were all given before. -/
structure Roster (s : State) : Prop where
  numbered : ∀ t ∈ s.tasks, t.1 < s.taskCount
  distinct : (s.tasks.map (·.1)).Nodup

/-! ## Every event keeps the roster -/

theorem Roster.congr {s other : State} (roster : s.Roster) (tasks : other.tasks = s.tasks)
    (taskCount : other.taskCount = s.taskCount) : other.Roster :=
  ⟨by rw [tasks, taskCount]; exact roster.numbered, by rw [tasks]; exact roster.distinct⟩

theorem Roster.begin {s : State} (roster : s.Roster) (a : Activity) : (s.begin a).Roster := by
  constructor
  · intro t member
    simp only [State.begin, List.mem_append, List.mem_singleton] at member
    show t.1 < s.taskCount + 1
    obtain before | rfl := member
    · exact Nat.lt_succ_of_lt (roster.numbered t before)
    · exact Nat.lt_succ_self _
  · simp only [State.begin, List.map_append, List.map_cons, List.map_nil]
    refine List.nodup_append.mpr ⟨roster.distinct, List.nodup_singleton _, ?_⟩
    rintro number member last lastMember rfl
    obtain ⟨t, inside, rfl⟩ := List.mem_map.mp member
    have equal : t.1 = s.taskCount := List.mem_singleton.mp lastMember
    exact absurd equal (Nat.ne_of_lt (roster.numbered t inside))

theorem Roster.foldl_begin {s : State} (roster : s.Roster) (activities : List Activity) :
    (activities.foldl State.begin s).Roster := by
  induction activities generalizing s with
  | nil => exact roster
  | cons a activities inductionHypothesis => exact inductionHypothesis (roster.begin a)

theorem Roster.dropTask {s : State} (roster : s.Roster) (task : TaskId) :
    (s.dropTask task).Roster := by
  have fewer : (s.dropTask task).tasks.Sublist s.tasks := List.filter_sublist
  exact ⟨fun t member => roster.numbered t (fewer.subset member),
    roster.distinct.sublist (fewer.map _)⟩

theorem numbers_setActivity (s : State) (task : TaskId) (a : Activity) :
    (s.setActivity task a).tasks.map (·.1) = s.tasks.map (·.1) := by
  simp only [setActivity, List.map_map]
  apply List.map_congr_left
  intro t _
  by_cases this : t.1 = task <;> simp [this]

theorem Roster.setActivity {s : State} (roster : s.Roster) (task : TaskId) (a : Activity) :
    (s.setActivity task a).Roster := by
  constructor
  · intro t member
    have number : t.1 ∈ s.tasks.map (·.1) := by
      rw [← numbers_setActivity s task a]
      exact List.mem_map_of_mem member
    obtain ⟨old, inside, equal⟩ := List.mem_map.mp number
    rw [← equal]
    exact roster.numbered old inside
  · rw [numbers_setActivity]
    exact roster.distinct

theorem Roster.follow {s : State} (roster : s.Roster) (task : TaskId) (next : Next) :
    (s.follow task next).Roster := by
  cases next with
  | ended answer => exact (roster.dropTask task).congr rfl rfl
  | ready a => exact roster.setActivity task a
  | parked a => exact (roster.setActivity task a).congr rfl rfl

theorem tasks_script (s : State) (change : Compiler.Replay → Compiler.Replay) :
    SameTasks s (s.script change) := by
  unfold script
  split <;> exact ⟨rfl, rfl, rfl, rfl⟩

theorem Roster.after {s : State} (roster : s.Roster) (e : Event) : (s.after e).Roster := by
  cases e with
  | advance task =>
    simp only [State.after]
    cases activity : s.activity? task with
    | none =>
      simp only [advance, activity]
      exact roster.congr rfl rfl
    | some a =>
      rw [advance_eq activity]
      have same := sameTasks_turn s task a
      have moved : ((s.turn task a).state.follow task (s.turn task a).next).Roster :=
        (roster.congr same.tasks same.taskCount).follow task _
      exact (moved.foldl_begin _).congr (tasks_foldl_wake _ _) (taskCount_foldl_wake _ _)
  | perform operation => exact roster.begin _
  | run id =>
    have same := sameTasks_startInvocation s id
    exact (roster.congr same.tasks same.taskCount).foldl_begin _
  | assign id file reparse =>
    have same := sameTasks_assignMainFile s id file reparse
    exact roster.congr same.tasks same.taskCount
  | cancel task => exact roster.dropTask task
  | instruct instruction =>
    have same := tasks_script s fun r => r.follow instruction
    exact roster.congr same.tasks same.taskCount
  | release gate =>
    have same := tasks_script s fun r => r.release gate
    simp only [State.after, State.release]
    exact (roster.congr same.tasks same.taskCount).congr (tasks_foldl_wake _ _)
      (taskCount_foldl_wake _ _)
  | surround files now => exact roster.congr rfl rfl

theorem Initial.roster {s : State} (initial : s.Initial) : s.Roster :=
  ⟨by simp [initial.tasks], by simp [initial.tasks]⟩

theorem Roster.afterAll {s : State} (roster : s.Roster) (es : List Event) :
    (s.afterAll es).Roster := by
  induction es generalizing s with
  | nil => exact roster
  | cons e es inductionHypothesis => exact inductionHypothesis (roster.after e)

/-! ## Numbers are given in order -/

theorem taskCount_le_foldl_begin (s : State) (activities : List Activity) :
    s.taskCount ≤ (activities.foldl State.begin s).taskCount := by
  induction activities generalizing s with
  | nil => exact Nat.le_refl _
  | cons a activities inductionHypothesis =>
    exact Nat.le_trans (Nat.le_succ _) (inductionHypothesis (s.begin a))

theorem taskCount_follow (s : State) (task : TaskId) (next : Next) :
    (s.follow task next).taskCount = s.taskCount := by
  cases next <;> rfl

theorem taskCount_le_after (s : State) (e : Event) : s.taskCount ≤ (s.after e).taskCount := by
  cases e with
  | advance task =>
    simp only [State.after]
    cases activity : s.activity? task with
    | none =>
      simp only [advance, activity]
      exact Nat.le_refl _
    | some a =>
      rw [advance_eq activity, taskCount_foldl_wake]
      calc s.taskCount = (s.turn task a).state.taskCount := (sameTasks_turn s task a).taskCount.symm
        _ = ((s.turn task a).state.follow task (s.turn task a).next).taskCount :=
          (taskCount_follow _ _ _).symm
        _ ≤ _ := taskCount_le_foldl_begin _ _
  | perform operation => exact Nat.le_succ _
  | run id =>
    rw [← (sameTasks_startInvocation s id).taskCount]
    exact taskCount_le_foldl_begin _ _
  | assign id file reparse =>
    exact Nat.le_of_eq (sameTasks_assignMainFile s id file reparse).taskCount.symm
  | cancel task => exact Nat.le_refl _
  | instruct instruction => exact Nat.le_of_eq (tasks_script s _).taskCount.symm
  | release gate =>
    have same : (s.release gate).taskCount = s.taskCount :=
      (taskCount_foldl_wake _ _).trans (tasks_script s _).taskCount
    exact Nat.le_of_eq same.symm
  | surround files now => exact Nat.le_refl _

/-! ## Looking up in a roster -/

theorem activity?_eq_some_iff {s : State} (roster : s.Roster) {task : TaskId} {a : Activity} :
    s.activity? task = some a ↔ (task, a) ∈ s.tasks := by
  simp only [activity?, Option.map_eq_some_iff]
  constructor
  · rintro ⟨t, found, rfl⟩
    have number : t.1 = task := by simpa using List.find?_some found
    rw [← number]
    exact List.mem_of_find?_eq_some found
  · intro member
    cases found : s.tasks.find? fun t => t.1 == task with
    | none =>
      have absent := List.find?_eq_none.mp found (task, a) member
      simp at absent
    | some t =>
      have number : t.1 = task := by simpa using List.find?_some found
      have inside : t ∈ s.tasks := List.mem_of_find?_eq_some found
      have same : t = (task, a) :=
        List.inj_on_of_nodup_map roster.distinct inside member number
      exact ⟨t, rfl, by rw [same]⟩

theorem Roster.lt_taskCount {s : State} (roster : s.Roster) {task : TaskId}
    (has : s.hasTask task = true) : task < s.taskCount := by
  obtain ⟨t, member, equal⟩ := List.any_eq_true.mp has
  rw [← (beq_iff_eq.mp equal)]
  exact roster.numbered t member

theorem Roster.number_lt {s : State} (roster : s.Roster) {task : TaskId} {a : Activity}
    (activity : s.activity? task = some a) : task < s.taskCount :=
  roster.numbered _ ((activity?_eq_some_iff roster).mp activity)

theorem mem_tasksAt {s : State} (roster : s.Roster) {stage : Activity → Option ContextId}
    {task : TaskId} {id : ContextId} :
    task ∈ s.tasksAt stage id ↔ ∃ a, s.activity? task = some a ∧ stage a = some id := by
  simp only [tasksAt, List.mem_map, List.mem_filter, beq_iff_eq]
  constructor
  · rintro ⟨t, ⟨member, there⟩, rfl⟩
    exact ⟨t.2, (activity?_eq_some_iff roster).mpr member, there⟩
  · rintro ⟨a, activity, there⟩
    exact ⟨(task, a), ⟨(activity?_eq_some_iff roster).mp activity, there⟩, rfl⟩

theorem mem_invocations {s : State} (roster : s.Roster) {task : TaskId} {id : ContextId} :
    task ∈ s.invocations id ↔ ∃ a, s.activity? task = some a ∧ a.invocation? = some id :=
  mem_tasksAt roster

theorem lt_taskCount_of_mem_invocations {s : State} (roster : s.Roster) {task : TaskId}
    {id : ContextId} (member : task ∈ s.invocations id) : task < s.taskCount := by
  obtain ⟨a, activity, _⟩ := (mem_invocations roster).mp member
  exact roster.number_lt activity

/-! ## The tasks that carry invocations -/

theorem invocations_congr {s other : State} (same : other.tasks = s.tasks) (id : ContextId) :
    other.invocations id = s.invocations id := by
  unfold invocations
  rw [same]

theorem invocations_begin (s : State) (a : Activity) (id : ContextId) :
    (s.begin a).invocations id =
      s.invocations id ++ if a.invocation? = some id then [s.taskCount] else [] := by
  simp only [State.begin, invocations, List.filter_append, List.map_append]
  congr 1
  by_cases carries : a.invocation? = some id <;> simp [carries]

theorem invocations_dropTask (s : State) (task : TaskId) (id : ContextId) :
    (s.dropTask task).invocations id = (s.invocations id).filter (· != task) := by
  simp only [State.dropTask, invocations, List.filter_map, List.filter_filter]
  congr 2
  funext t
  exact Bool.and_comm _ _

theorem invocations_setActivity_of_plain (s : State) (task : TaskId) {a : Activity}
    (plain : a.invocation? = none) (id : ContextId) :
    (s.setActivity task a).invocations id = (s.invocations id).filter (· != task) := by
  simp only [State.setActivity, invocations]
  induction s.tasks with
  | nil => rfl
  | cons t rest inductionHypothesis =>
    by_cases this : t.1 = task <;> by_cases carries : t.2.invocation? = some id <;>
      simp_all

/-- A task that goes on with anything but an invocation carries none any more. -/
theorem invocations_follow_of_plain (s : State) (task : TaskId) {next : Next}
    (plain : next.activity?.bind Activity.invocation? = none) (id : ContextId) :
    (s.follow task next).invocations id = (s.invocations id).filter (· != task) := by
  cases next with
  | ended answer => exact invocations_dropTask s task id
  | ready a | parked a => exact invocations_setActivity_of_plain s task plain id

/-- A task that goes on with its invocation carries it as before. -/
theorem invocations_follow_of_carries {s : State} (roster : s.Roster) {task : TaskId}
    {a carried : Activity} {next : Next} (activity : s.activity? task = some a)
    (goes : next.activity? = some carried) (carries : carried.invocation? = a.invocation?)
    (id : ContextId) : (s.follow task next).invocations id = s.invocations id := by
  have replaced : (s.setActivity task carried).invocations id = s.invocations id := by
    simp only [State.setActivity, invocations, List.filter_map, List.map_map]
    have keeps : ∀ t ∈ s.tasks, ((fun t : TaskId × Activity => t.2.invocation? == some id) ∘
        fun t => if t.1 == task then (task, carried) else t) t =
          (t.2.invocation? == some id) := by
      intro t member
      by_cases this : t.1 = task
      · have same : t.2 = a := by
          have known := (activity?_eq_some_iff roster).mpr member
          rw [this, activity] at known
          exact (Option.some.inj known).symm
        simp [this, carries, same]
      · simp [this]
    rw [List.filter_congr keeps]
    apply List.map_congr_left
    intro t _
    by_cases this : t.1 = task <;> simp [this]
  cases next with
  | ended answer => cases goes
  | ready b | parked b => cases goes; exact replaced

theorem filter_ne_invocations {s : State} (roster : s.Roster) {task : TaskId} {a : Activity}
    {id : ContextId} (activity : s.activity? task = some a) (differs : a.invocation? ≠ some id) :
    (s.invocations id).filter (· != task) = s.invocations id := by
  apply List.filter_eq_self.mpr
  intro other member
  obtain ⟨b, known, carries⟩ := (mem_invocations roster).mp member
  rw [bne_iff_ne]
  rintro rfl
  rw [activity] at known
  cases known
  exact differs carries

end State

end PawnQuery.Engine
