import Mathlib.Algebra.BigOperators.Ring.List
import Mathlib.Algebra.Order.BigOperators.Group.List
import Mathlib.Algebra.Order.Ring.Nat
import PawnQuery.Proofs.Engine.Course
import PawnQuery.Proofs.Registry.Size

/-!
# What tasks have still to do

Every section brings its task closer to the end, also one that begins another task.  To look up an
owner takes as many sections as there are workspaces to look at, a sweep takes as many look-ups as
there are contexts of scripts, and an invocation leads to one sweep.  Counted like this, what is
still to be done gets less with every section; so every schedule comes to an end, and the number of
sections that is allowed for in advance is enough.
-/

namespace PawnQuery

/-- A look-up that begins now takes `lookup` sections at most, and a sweep `sweep`. -/
structure Registry.Affords (r : Registry) (lookup sweep : Nat) : Prop where
  lookups : 3 * r.candidates.length + 4 ≤ lookup
  sweeps : r.sweepKeys.length * lookup ≤ sweep

namespace Engine

open PawnQuery.Registry (Change)

/-! ## What a task can still do -/

/-- The most sections that a task takes once it knows an owner, if a look-up takes `lookup`. -/
def Goal.effort (lookup : Nat) : Goal → Nat
  | .sweep rest => rest.length * lookup
  | _ => 0

/-- The most sections that a task can still take, together with the invocations that it begins, if
a look-up takes `lookup` of them and a sweep `sweep`. -/
def Activity.effort (lookup sweep : Nat) : Activity → Nat
  | .launch _ _ => sweep + 4
  | .giveUp _ => 1
  | .collect _ _ => sweep + 3
  | .tell _ => sweep + 2
  | .sweep => sweep + 1
  | .register todo made => todo.length * (sweep + 7) + made.length * (sweep + 6) + 3
  | .detach _ added => added.length * (sweep + 8) + 2
  | .enroll added => added.length * (sweep + 8) + 1
  | .assign rest added => rest.length * (sweep + 6) + added.length * (sweep + 8) + 2
  | .request _ rest added => rest.length * (sweep + 6) + added.length * (sweep + 8) + sweep + 7
  | .clear => 1
  | .wait _ => 2
  | .leave => 1
  | .resolve _ goal => lookup + goal.effort lookup
  | .enter q left => left.length + 2 * q.workspaces.length + 3 + q.goal.effort lookup
  | .search q left => 2 * left.length + 2 + q.goal.effort lookup
  | .inspect q _ left => 2 * left.length + 3 + q.goal.effort lookup
  | .settle _ goal _ => 1 + goal.effort lookup

def Goal.keys : Goal → Nat
  | .sweep rest => rest.length + 1
  | _ => 0

/-- The entries that a look-up for this goal may add to a table. -/
def Goal.entries (fetched : Nat) : Goal → Nat
  | .fetch _ => fetched
  | _ => 0

/-- The most entries that a task can still add to a table, `fetched` being those of a look-up. -/
def Activity.entries (fetched : Nat) : Activity → Nat
  | .register todo _ => todo.length
  | .detach _ added | .enroll added | .assign _ added | .request _ _ added => added.length
  | .resolve _ goal | .settle _ goal _ => goal.entries fetched
  | .enter q _ | .search q _ | .inspect q _ _ => q.goal.entries fetched
  | _ => 0

def Activity.entriesNow (fetched : Nat) : Activity → Nat
  | .register (_ :: _) _ | .enroll (_ :: _) => 1
  | .settle _ goal _ => goal.entries fetched
  | _ => 0

/-- A search has no more workspaces left than it has taken down. -/
def Activity.InBounds : Activity → Prop
  | .enter q left | .search q left => left.length ≤ q.workspaces.length
  | .inspect q _ left => left.length < q.workspaces.length
  | _ => True

namespace State

variable {s : State} {task : TaskId} {a b : Activity} {lookup sweep fetched : Nat}

/-! ## One section -/

theorem effort_of_follows (affords : s.registry.Affords lookup sweep) (follows : s.Follows a b) :
    b.effort lookup sweep < a.effort lookup sweep := by
  have lookups := affords.lookups
  cases follows with
  | sweeps keys =>
    have sweeps := affords.sweeps
    rw [keys, List.length_cons, Nat.succ_mul] at sweeps
    simp only [Activity.effort, Goal.effort]
    omega
  | swept =>
    simp only [Activity.effort, Goal.effort, List.length_cons, Nat.succ_mul]
    omega
  | registers | enrolls | assigns =>
    simp only [Activity.effort, List.length_cons, List.length_append, List.length_nil, Nat.succ_mul]
    omega
  | refused | answered | published | told | registered | detached | assigned | requests | waits =>
    simp only [Activity.effort, List.length_nil]
    omega
  | opens | alone | enters | passes | searches | awaits | skips | unowned | includes | lacks =>
    simp only [Activity.effort, List.length_cons]
    omega

theorem effort_pos (a : Activity) (positive : 0 < lookup) : 0 < a.effort lookup sweep := by
  cases a <;> simp only [Activity.effort] <;> omega

theorem effort_turn (task : TaskId) (a : Activity) (affords : s.registry.Affords lookup sweep) :
    (s.turn task a).next.activity?.elim 0 (Activity.effort lookup sweep) +
        ((s.turn task a).started.map (Activity.effort lookup sweep)).sum <
      a.effort lookup sweep := by
  have goesOn : (s.turn task a).next.activity?.elim 0 (Activity.effort lookup sweep) <
      a.effort lookup sweep := by
    cases goes : (s.turn task a).next.activity? with
    | none => exact effort_pos a (by have := affords.lookups; omega)
    | some b => exact effort_of_follows affords (follows_turn goes)
  obtain nothing | ⟨id, rest, added, rfl⟩ := s.started_turn task a
  · rw [nothing]
    exact goesOn
  · -- The invocation that begins is counted with the request for it.
    have next : (s.turn task (.request id rest added)).next.activity? =
        some (.assign rest added) := rfl
    obtain nothing | ⟨invocation, started, -⟩ := s.started_startInvocation id
    · have begun : (s.turn task (.request id rest added)).started = [] := nothing
      rw [begun]
      exact goesOn
    · have begun : (s.turn task (.request id rest added)).started = [.launch id invocation] :=
        started
      rw [next, begun]
      simp only [Option.elim_some, Activity.effort, List.map_cons, List.map_nil, List.sum_cons,
        List.sum_nil, add_zero]
      omega

/-! ## Entries in the tables -/

theorem entries_changeBy? (s : State) (task : TaskId) (a : Activity) (fetched : Nat) :
    (s.changeBy? task a).elim 0 (Change.entries fetched) = a.entriesNow fetched := by
  have waits : (a.awaited?.map fun waits => Change.context waits.1 (.enqueue task)).elim 0
      (Change.entries fetched) = 0 := by
    cases a.awaited? <;> rfl
  cases a with
  | register todo made => cases todo <;> rfl
  | enroll added =>
    cases added with
    | nil => exact waits
    | cons d rest => rfl
  | assign rest added =>
    cases rest with
    | nil => exact waits
    | cons a rest => rfl
  | settle path goal owner => cases goal <;> rfl
  | giveUp _ | collect _ _ | detach _ _ | request _ _ _ | clear => rfl
  | launch _ _ | tell _ | wait _ | leave | resolve _ _ | enter _ _ | search _ _ | inspect _ _ _
  | sweep => exact waits

theorem entriesNow_le (a : Activity) (fetched : Nat) :
    a.entriesNow fetched ≤ a.entries fetched := by
  cases a with
  | register todo made => cases todo <;> simp [Activity.entriesNow, Activity.entries]
  | enroll added => cases added <;> simp [Activity.entriesNow, Activity.entries]
  | _ => simp [Activity.entriesNow, Activity.entries]

theorem entries_of_follows (fetched : Nat) (follows : s.Follows a b) :
    a.entriesNow fetched + b.entries fetched ≤ a.entries fetched := by
  cases follows with
  | registers | enrolls =>
    simp only [Activity.entriesNow, Activity.entries, List.length_cons]
    omega
  | _ => simp [Activity.entriesNow, Activity.entries, Goal.entries]

theorem entries_turn (s : State) (task : TaskId) (a : Activity) (fetched : Nat) :
    (s.changeBy? task a).elim 0 (Change.entries fetched) +
        (s.turn task a).next.activity?.elim 0 (Activity.entries fetched) ≤
      a.entries fetched := by
  rw [entries_changeBy?]
  cases goes : (s.turn task a).next.activity? with
  | none => exact entriesNow_le a fetched
  | some b => exact entries_of_follows fetched (follows_turn goes)

/-! ## All tasks together -/

def total (quantity : Activity → Nat) (s : State) : Nat := (s.tasks.map fun t => quantity t.2).sum

theorem Roster.split (roster : s.Roster) (activity : s.activity? task = some a) :
    ∃ before after, s.tasks = before ++ (task, a) :: after ∧
      (∀ t ∈ before, t.1 ≠ task) ∧ ∀ t ∈ after, t.1 ≠ task := by
  obtain ⟨before, after, split⟩ :=
    List.append_of_mem ((activity?_eq_some_iff roster).mp activity)
  have distinct := roster.distinct
  rw [split, List.map_append, List.map_cons, List.nodup_middle, List.nodup_cons, List.mem_append,
    not_or] at distinct
  refine ⟨before, after, split, fun t member same => ?_, fun t member same => ?_⟩
  · exact distinct.1.1 (List.mem_map.mpr ⟨t, member, same⟩)
  · exact distinct.1.2 (List.mem_map.mpr ⟨t, member, same⟩)

/-- What a task contributes to a quantity is replaced by what it has come to. -/
theorem total_follow (roster : s.Roster) (activity : s.activity? task = some a)
    (quantity : Activity → Nat) (next : Next) :
    total quantity (s.follow task next) + quantity a =
      total quantity s + next.activity?.elim 0 quantity := by
  obtain ⟨before, after, split, earlier, later⟩ := roster.split activity
  have others : ∀ l : List (TaskId × Activity), (∀ t ∈ l, t.1 ≠ task) →
      ∀ b, l.map (fun t => if t.1 == task then (task, b) else t) = l := by
    intro l differ b
    refine (List.map_congr_left fun t member => ?_).trans (List.map_id _)
    simp [differ t member]
  have kept : ∀ l : List (TaskId × Activity), (∀ t ∈ l, t.1 ≠ task) →
      l.filter (fun t => t.1 != task) = l := fun l differ =>
    List.filter_eq_self.mpr fun t member => bne_iff_ne.mpr (differ t member)
  cases next with
  | ended answer =>
    simp only [total, follow, finish, dropTask, split, List.filter_append, List.filter_cons,
      bne_self_eq_false, kept _ earlier, kept _ later, Next.activity?, Bool.false_eq_true,
      ↓reduceIte, List.map_append, List.sum_append, List.map_cons, List.sum_cons,
      Option.elim_none]
    omega
  | ready b | parked b =>
    simp only [total, follow, setActivity, park, split, List.map_append, List.map_cons,
      beq_self_eq_true, others _ earlier, others _ later, Next.activity?, ↓reduceIte,
      List.sum_append, List.sum_cons, Option.elim_some]
    omega

theorem total_foldl_begin (quantity : Activity → Nat) (s : State) (activities : List Activity) :
    total quantity (activities.foldl begin s) =
      total quantity s + (activities.map quantity).sum := by
  induction activities generalizing s with
  | nil => rfl
  | cons a activities inductionHypothesis =>
    rw [List.foldl_cons, inductionHypothesis]
    simp only [total, begin, List.map_append, List.map_cons, List.map_nil, List.sum_append,
      List.sum_cons, List.sum_nil]
    omega

theorem total_congr {other : State} (quantity : Activity → Nat) (same : other.tasks = s.tasks) :
    total quantity other = total quantity s := by
  unfold total
  rw [same]

theorem total_advance (roster : s.Roster) (activity : s.activity? task = some a)
    (quantity : Activity → Nat) :
    total quantity (s.advance task) + quantity a =
      total quantity s + (s.turn task a).next.activity?.elim 0 quantity +
        ((s.turn task a).started.map quantity).sum := by
  have same := sameTasks_turn s task a
  have follows := total_follow (roster.congr same.tasks same.taskCount)
    ((activity?_congr same.tasks task).trans activity) quantity (s.turn task a).next
  rw [total_congr quantity same.tasks] at follows
  rw [advance_eq activity, total_congr quantity (tasks_foldl_wake _ _), total_foldl_begin]
  omega

/-! ## Every schedule comes to an end -/

/-- Whatever is still opened or made, a look-up takes `lookup` sections at most and a sweep
`sweep`. -/
structure Within (s : State) (lookup sweep : Nat) : Prop where
  lookups : 3 * (s.registry.workspaces.size + s.total (Activity.entries 0)) + 4 ≤ lookup
  sweeps : (s.registry.registered.size + s.total (Activity.entries 1)) * lookup ≤ sweep

theorem Within.affords (within : s.Within lookup sweep) : s.registry.Affords lookup sweep := by
  have lookups := within.lookups
  have candidates := s.registry.length_candidates_le
  refine ⟨by omega, Nat.le_trans (Nat.mul_le_mul_right lookup ?_) within.sweeps⟩
  exact Nat.le_trans s.registry.length_sweepKeys_le (Nat.le_add_right _ _)

theorem entries_advance (roster : s.Roster) (activity : s.activity? task = some a)
    (size : Registry → Nat)
    (grows : ∀ r change, size (r.apply change) ≤ size r + Change.entries fetched change) :
    size (s.advance task).registry + (s.advance task).total (Activity.entries fetched) ≤
      size s.registry + s.total (Activity.entries fetched) := by
  have registry : size (s.advance task).registry ≤
      size s.registry + (s.changeBy? task a).elim 0 (Change.entries fetched) := by
    have after := registry_after s (.advance task)
    simp only [State.after, change?, activity, Option.bind_some] at after
    rw [after]
    cases s.changeBy? task a with
    | none => exact Nat.le_refl _
    | some change => exact grows s.registry change
  have begun : ((s.turn task a).started.map (Activity.entries fetched)).sum = 0 := by
    obtain nothing | ⟨id, rest, added, rfl⟩ := s.started_turn task a
    · rw [nothing]
      rfl
    · obtain nothing | ⟨invocation, started, -⟩ := s.started_startInvocation id
      · simp only [turn, nothing, List.map_nil, List.sum_nil]
      · simp [turn, started, Activity.entries]
  have counts := total_advance roster activity (Activity.entries fetched)
  have turns := s.entries_turn task a fetched
  omega

theorem Within.advance (within : s.Within lookup sweep) (roster : s.Roster)
    (activity : s.activity? task = some a) : (s.advance task).Within lookup sweep := by
  have workspaces := entries_advance roster activity (·.workspaces.size)
    Registry.size_workspaces_apply_le
  have registered := entries_advance roster activity (·.registered.size)
    Registry.size_registered_apply_le
  have lookups := within.lookups
  exact ⟨by omega, Nat.le_trans (Nat.mul_le_mul_right lookup registered) within.sweeps⟩

theorem effort_advance (within : s.Within lookup sweep) (roster : s.Roster)
    (activity : s.activity? task = some a) :
    (s.advance task).total (Activity.effort lookup sweep) <
      s.total (Activity.effort lookup sweep) := by
  have counts := total_advance roster activity (Activity.effort lookup sweep)
  have turns := effort_turn task a within.affords
  omega

theorem Orderly.exists_activity? (orderly : s.Orderly) (ready : task ∈ s.queue) :
    ∃ a, s.activity? task = some a := by
  have present := orderly.queued task ready
  rw [hasTask_eq] at present
  exact Option.isSome_iff_exists.mp present

theorem Orderly.advance (orderly : s.Orderly) (roster : s.Roster) (ready : task ∈ s.queue) :
    (s.advance task).Orderly := by
  have allowed : s.Allows (.advance task) := ready
  exact orderly.after roster allowed

/-- Whichever task moves next, and whichever after it, nothing can move any more in the end. -/
theorem acc_moves (roster : s.Roster) (orderly : s.Orderly) :
    Acc (fun later earlier => Moves earlier later) s := by
  obtain ⟨lookup, sweep, within⟩ : ∃ lookup sweep, s.Within lookup sweep :=
    ⟨_, _, Nat.le_refl _, Nat.le_refl _⟩
  -- By strong induction on what is still to be done.
  generalize effort : s.total (Activity.effort lookup sweep) = n
  induction n using Nat.strongRecOn generalizing s with
  | ind n inductionHypothesis =>
    refine ⟨s, fun later moves => ?_⟩
    cases moves with
    | @advance task ready =>
      obtain ⟨a, activity⟩ := orderly.exists_activity? ready
      have less := effort_advance within roster activity
      rw [effort] at less
      exact inductionHypothesis _ less (roster.after (.advance task))
        (orderly.advance roster ready) (within.advance roster activity) rfl

theorem atRest_drainWithin (roster : s.Roster) (orderly : s.Orderly)
    (within : s.Within lookup sweep) {fuel : Nat}
    (enough : s.total (Activity.effort lookup sweep) ≤ fuel) : (s.drainWithin fuel).atRest := by
  induction fuel generalizing s with
  | zero =>
    unfold drainWithin atRest
    by_contra busy
    obtain ⟨task, ready⟩ := List.exists_mem_of_ne_nil _ busy
    obtain ⟨a, activity⟩ := orderly.exists_activity? ready
    have less := effort_advance within roster activity
    omega
  | succ fuel inductionHypothesis =>
    unfold drainWithin
    split
    next rests => exact rests
    next task rest queue =>
      have ready : task ∈ s.queue := by
        rw [queue]
        exact List.mem_cons_self
      obtain ⟨a, activity⟩ := orderly.exists_activity? ready
      have less := effort_advance within roster activity
      exact inductionHypothesis (roster.after (.advance task))
        (orderly.advance roster ready) (within.advance roster activity)
        (by omega)

/-! ## What is allowed for in advance -/

/-- No search has more workspaces left than it has taken down. -/
def Bounded (s : State) : Prop := ∀ task a, s.activity? task = some a → a.InBounds

theorem inBounds_of_follows (follows : s.Follows a b) (bounds : a.InBounds) : b.InBounds := by
  cases follows with
  | opens | searches => exact Nat.le_refl _
  | passes | skips => exact Nat.le_of_succ_le bounds
  | awaits => exact bounds
  | lacks => exact Nat.le_of_lt bounds
  | _ => trivial

theorem Initial.bounded (initial : s.Initial) : s.Bounded := by
  intro task a activity
  simp [activity?, initial.tasks] at activity

theorem Bounded.after (bounded : s.Bounded) (roster : s.Roster) (e : Event) :
    (s.after e).Bounded := by
  intro task b activity
  cases course roster activity with
  | stays _ before => exact bounded task b before
  | moves before goes => exact inBounds_of_follows (follows_turn goes) (bounded task _ before)
  | @performs o => cases o <;> trivial
  | begins => trivial

theorem goal_effort_le {goal : Goal} (sweeps : goal.keys * lookup ≤ sweep) :
    goal.effort lookup ≤ sweep := by
  cases goal with
  | sweep rest => exact Nat.le_trans (Nat.mul_le_mul_right lookup (Nat.le_succ _)) sweeps
  | tell | fetch _ | remove => exact Nat.zero_le _

/-- A task has as much to do as an invocation for each of its main files, and one more. -/
theorem effort_le (bounds : a.InBounds) {workspaces : Nat}
    (widest : a.pendingWorkspaces ≤ workspaces) (lookups : 3 * workspaces + 4 ≤ lookup)
    (sweeps : a.pendingKeys * lookup ≤ sweep) :
    a.effort lookup sweep ≤ (1 + a.pendingAssignments) * (sweep + lookup + 8) := by
  have files : ∀ n k, k ≤ 8 → n * (sweep + k) ≤ n * (sweep + lookup + 8) := fun n k few =>
    Nat.mul_le_mul_left n (by omega)
  rw [Nat.add_mul, Nat.one_mul]
  cases a with
  | register todo made =>
    have ofTodo := files todo.length 7 (by omega)
    have ofMade := files made.length 6 (by omega)
    simp only [Activity.effort, Activity.pendingAssignments, Nat.add_mul _ _ (_ + _)]
    omega
  | detach _ added | enroll added =>
    have ofAdded := files added.length 8 (by omega)
    simp only [Activity.effort, Activity.pendingAssignments]
    omega
  | assign rest added | request _ rest added =>
    have ofRest := files rest.length 6 (by omega)
    have ofAdded := files added.length 8 (by omega)
    simp only [Activity.effort, Activity.pendingAssignments, Nat.add_mul _ _ (_ + _), Nat.one_mul]
    omega
  | resolve path goal =>
    have keys : goal.keys * lookup ≤ sweep := by cases goal <;> exact sweeps
    have onward := goal_effort_le keys
    simp only [Activity.effort, Activity.pendingAssignments]
    omega
  | settle path goal owner =>
    have keys : goal.keys * lookup ≤ sweep := by cases goal <;> exact sweeps
    have onward := goal_effort_le keys
    simp only [Activity.effort, Activity.pendingAssignments]
    omega
  | enter q left | search q left | inspect q w left =>
    have keys : q.goal.keys * lookup ≤ sweep := by
      simp only [Activity.pendingKeys] at sweeps
      split at sweeps <;> simp_all [Goal.keys]
    have onward := goal_effort_le keys
    simp only [Activity.InBounds, Activity.pendingWorkspaces] at bounds widest
    simp only [Activity.effort, Activity.pendingAssignments]
    omega
  | _ =>
    simp only [Activity.effort, Activity.pendingAssignments]
    omega

theorem foldl_eq_total (quantity : Activity → Nat) (s : State) :
    s.tasks.foldl (fun sum t => sum + quantity t.2) 0 = s.total quantity := by
  unfold total
  rw [List.sum_eq_foldl, List.foldl_map]

theorem le_total {t : TaskId × Activity} (member : t ∈ s.tasks) (quantity : Activity → Nat) :
    quantity t.2 ≤ s.total quantity :=
  List.single_le_sum (fun _ _ => Nat.zero_le _) _ (List.mem_map_of_mem member)

theorem entries_le (a : Activity) (few : fetched ≤ 1) :
    a.entries fetched ≤ a.pendingAssignments + fetched := by
  have goals : ∀ goal : Goal, goal.entries fetched ≤ fetched := by
    intro goal
    cases goal <;> simp [Goal.entries]
  cases a with
  | resolve _ goal | settle _ goal _ => exact Nat.le_trans (goals goal) (Nat.le_add_left _ _)
  | enter q _ | search q _ | inspect q _ _ =>
    exact Nat.le_trans (goals q.goal) (Nat.le_add_left _ _)
  | _ =>
    simp only [Activity.entries, Activity.pendingAssignments]
    omega

theorem total_entries_le (s : State) (few : fetched ≤ 1) :
    s.total (Activity.entries fetched) ≤
      s.total Activity.pendingAssignments + s.tasks.length * fetched := by
  have each : s.total (Activity.entries fetched) ≤
      (s.tasks.map fun t => t.2.pendingAssignments + fetched).sum :=
    List.sum_le_sum fun t _ => entries_le t.2 few
  rw [List.sum_map_add] at each
  simpa [total] using each

theorem total_effort_le (roster : s.Roster) (bounded : s.Bounded) (workspaces keys : Nat)
    (widest : s.total Activity.pendingWorkspaces ≤ workspaces)
    (longest : s.total Activity.pendingKeys ≤ keys) (lookups : 3 * workspaces + 4 ≤ lookup) :
    s.total (Activity.effort lookup (keys * lookup)) ≤
      (s.tasks.length + s.total Activity.pendingAssignments) * (keys * lookup + lookup + 8) := by
  have each : s.total (Activity.effort lookup (keys * lookup)) ≤ (s.tasks.map fun t =>
      (1 + t.2.pendingAssignments) * (keys * lookup + lookup + 8)).sum := by
    refine List.sum_le_sum fun t member => ?_
    have activity : s.activity? t.1 = some t.2 := (activity?_eq_some_iff roster).mpr member
    exact effort_le (bounded t.1 t.2 activity)
      (Nat.le_trans (le_total member Activity.pendingWorkspaces) widest) lookups
      (Nat.mul_le_mul_right lookup
        (Nat.le_trans (le_total member Activity.pendingKeys) longest))
  rw [List.sum_map_mul_right, List.sum_map_add] at each
  simpa [total] using each

/-- The number of sections that is allowed for is enough for all that there is to do. -/
theorem effort_le_workLeft (roster : s.Roster) (bounded : s.Bounded) :
    ∃ lookup sweep, s.Within lookup sweep ∧
      s.total (Activity.effort lookup sweep) ≤ s.workLeft := by
  unfold workLeft
  simp only [foldl_eq_total]
  generalize pending : s.total Activity.pendingAssignments = assignments
  have opened := s.total_entries_le (Nat.zero_le 1)
  have made := s.total_entries_le (Nat.le_refl 1)
  rw [pending] at opened made
  generalize wide : s.registry.workspaces.size + assignments + s.total Activity.pendingWorkspaces =
    workspaces
  generalize long : s.registry.registered.size + assignments + s.tasks.length +
    s.total Activity.pendingKeys = keys
  have lookups : 3 * workspaces + 4 ≤ 4 * workspaces + 8 := by omega
  have enough := total_effort_le roster bounded workspaces keys (by omega) (by omega) lookups
  refine ⟨4 * workspaces + 8, keys * (4 * workspaces + 8), ⟨by omega, ?_⟩, ?_⟩
  · exact Nat.mul_le_mul_right _ (by omega)
  · rw [pending] at enough
    refine Nat.le_trans enough (Nat.mul_le_mul (Nat.le_succ _) ?_)
    rw [Nat.succ_mul keys]
    omega

/-- To go on for as long as is allowed for is to go on until nothing can move. -/
theorem atRest_drain (roster : s.Roster) (orderly : s.Orderly) (bounded : s.Bounded) :
    s.drain.atRest := by
  obtain ⟨lookup, sweep, within, enough⟩ := effort_le_workLeft roster bounded
  exact atRest_drainWithin roster orderly within enough

end State

end Engine

end PawnQuery
