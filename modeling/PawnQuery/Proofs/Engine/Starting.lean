import PawnQuery.Proofs.Engine.Alone

/-!
# An operation on its own that starts invocations

An operation that opens workspaces begins a task for each invocation that it starts.  As long as it
has the program to itself these tasks stay where they begin, behind everything that could move
before.  So it leaves behind its answer, another registry, and the tasks that it has begun.
-/

namespace PawnQuery.Engine.State

/-- The newest task but those in `begun` has come to an activity, and the registry has become
another. -/
def atWork (s : State) (r : Registry) (a : Activity) (begun : List Activity) : State :=
  begun.foldl begin ({ s with registry := r }.begin a)

/-- An operation that has the program to itself ends with an answer; by then the registry is another,
and some tasks have begun that have not moved yet. -/
def ConcludesWith (s : State) (o : Operation) (r : Registry) (answer : Answer)
    (begun : List Activity) : Prop :=
  ∃ n, let alone : List Event := .perform o :: .replicate n (.advance s.taskCount)
    s.Possible alone ∧ s.afterAll alone = begun.foldl begin (s.concluded r answer)

variable {s : State} {task : TaskId} {a b : Activity} {r after : Registry}
  {begun started : List Activity}

/-! ## Tasks that have begun since -/

theorem withRegistry_foldl_begin (s : State) (r : Registry) (begun : List Activity) :
    { begun.foldl begin s with registry := r } = begun.foldl begin { s with registry := r } := by
  induction begun generalizing s with
  | nil => rfl
  | cons a begun inductionHypothesis => exact inductionHypothesis (s.begin a)

theorem setActivity_foldl_begin (old : task < s.taskCount) (b : Activity) (begun : List Activity) :
    (begun.foldl begin s).setActivity task b = begun.foldl begin (s.setActivity task b) := by
  induction begun generalizing s with
  | nil => rfl
  | cons a begun inductionHypothesis =>
    have first : (s.begin a).setActivity task b = (s.setActivity task b).begin a := by
      simp [setActivity, begin, Nat.ne_of_gt old]
    rw [List.foldl_cons, inductionHypothesis (Nat.lt_succ_of_lt old), first]
    rfl

theorem finish_foldl_begin (old : task < s.taskCount) (answer : Answer) (begun : List Activity) :
    (begun.foldl begin s).finish task answer = begun.foldl begin (s.finish task answer) := by
  induction begun generalizing s with
  | nil => rfl
  | cons a begun inductionHypothesis =>
    have first : (s.begin a).finish task answer = (s.finish task answer).begin a := by
      have apart : task ∉ [s.taskCount] := by simpa using Nat.ne_of_lt old
      have queue : (s.queue ++ [s.taskCount]).erase task = s.queue.erase task ++ [s.taskCount] := by
        rw [List.erase_append]
        split
        · rfl
        next absent => rw [List.erase_of_not_mem apart, List.erase_of_not_mem absent]
      simp [finish, dropTask, begin, Nat.ne_of_gt old, queue]
    rw [List.foldl_cons, inductionHypothesis (Nat.lt_succ_of_lt old), first]
    rfl

/-! ## The sections of the task -/

@[simp] theorem registry_atWork (s : State) (r : Registry) (a : Activity) (begun : List Activity) :
    (s.atWork r a begun).registry = r := registry_foldl_begin _ begun

@[simp] theorem files_atWork (s : State) (r : Registry) (a : Activity) (begun : List Activity) :
    (s.atWork r a begun).files = s.files := by
  unfold atWork
  generalize new : { s with registry := r }.begin a = t
  have same : t.files = s.files := new ▸ rfl
  clear new
  induction begun generalizing t with
  | nil => exact same
  | cons b begun inductionHypothesis => exact inductionHypothesis _ same

theorem NextFree.withRegistry (free : s.NextFree) (r : Registry) :
    { s with registry := r }.NextFree := ⟨free.tasks, free.queue, free.answers⟩

theorem NextFree.activity?_atWork (free : s.NextFree) (r : Registry) (a : Activity)
    (begun : List Activity) : (s.atWork r a begun).activity? s.taskCount = some a := by
  rw [atWork, activity?_foldl_begin _ _ (Nat.lt_succ_self s.taskCount)]
  exact (free.withRegistry r).activity?_begin a

theorem mem_queue_atWork (s : State) (r : Registry) (a : Activity) (begun : List Activity) :
    s.taskCount ∈ (s.atWork r a begun).queue := by
  rw [atWork, queue_foldl_begin]
  exact List.mem_append_left _ (List.mem_append_right _ (List.mem_singleton_self _))

/-- A section of the task that goes on changes its activity and perhaps the registry, and begins
other tasks. -/
theorem NextFree.leads_atWork (free : s.NextFree)
    (turns : (s.atWork r a begun).turn s.taskCount a =
      ⟨{ s.atWork r a begun with registry := after }, .ready b, started, []⟩) :
    Leads s.taskCount (s.atWork r a begun) (s.atWork after b (begun ++ started)) := by
  have moved : (s.atWork r a begun).advance s.taskCount = s.atWork after b (begun ++ started) := by
    rw [advance_eq (free.activity?_atWork r a begun), turns]
    simp only [follow, List.foldl_nil, atWork, withRegistry_foldl_begin, List.foldl_append]
    rw [setActivity_foldl_begin (Nat.lt_succ_self s.taskCount)]
    exact congrArg (fun t => started.foldl begin (begun.foldl begin t))
      ((free.withRegistry r).setActivity_begin a b after)
  rw [← moved]
  exact leads_advance (mem_queue_atWork s r a begun)

theorem NextFree.leads_atWork_alone (free : s.NextFree)
    (turns : (s.atWork r a begun).turn s.taskCount a =
      ⟨{ s.atWork r a begun with registry := after }, .ready b, [], []⟩) :
    Leads s.taskCount (s.atWork r a begun) (s.atWork after b begun) := by
  have leads := free.leads_atWork turns
  rwa [List.append_nil] at leads

theorem NextFree.leads_concluded (free : s.NextFree) {answer : Answer}
    (turns : (s.atWork r a begun).turn s.taskCount a =
      ⟨s.atWork r a begun, .ended answer, [], []⟩) :
    Leads s.taskCount (s.atWork r a begun) (begun.foldl begin (s.concluded r answer)) := by
  have others : s.tasks.filter (fun t => t.1 != s.taskCount) = s.tasks :=
    List.filter_eq_self.mpr fun t member => bne_iff_ne.mpr (Nat.ne_of_lt (free.tasks t member))
  have absent : s.taskCount ∉ s.queue := fun member =>
    Nat.lt_irrefl _ (free.queue s.taskCount member)
  have ended : ({ s with registry := r }.begin a).finish s.taskCount answer =
      s.concluded r answer := by
    simp [finish, dropTask, begin, others, List.erase_append_right _ absent]
    rfl
  have moved : (s.atWork r a begun).advance s.taskCount =
      begun.foldl begin (s.concluded r answer) := by
    rw [advance_eq (free.activity?_atWork r a begun), turns]
    simp only [follow, List.foldl_nil, atWork]
    rw [finish_foldl_begin (Nat.lt_succ_self s.taskCount), ended]
  rw [← moved]
  exact leads_advance (mem_queue_atWork s r a begun)

theorem concludesWith_of_leads {o : Operation} {answer : Answer}
    (leads : Leads s.taskCount (s.atWork s.registry o.activity [])
      (begun.foldl begin (s.concluded r answer))) : s.ConcludesWith o r answer begun := by
  obtain ⟨n, possible, ends⟩ := leads
  exact ⟨n, ⟨trivial, possible⟩, ends⟩

end PawnQuery.Engine.State
