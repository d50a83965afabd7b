import PawnQuery.Proofs.Engine.Answer
import PawnQuery.Proofs.Engine.Waiting

/-!
# An operation on its own

While no invocation runs, nobody has to wait.  An operation that is asked for then and has the
program to itself goes through its sections one after the other until it ends; tasks that were there
before stay where they are.  So what the operation does is a matter of its own sections alone.
-/

namespace PawnQuery.Engine.State

/-- Nothing is known yet of the task that begins next. -/
structure NextFree (s : State) : Prop where
  tasks : ∀ t ∈ s.tasks, t.1 < s.taskCount
  queue : ∀ task ∈ s.queue, task < s.taskCount
  answers : ∀ given ∈ s.answers, given.1 < s.taskCount

theorem Initial.nextFree {s : State} (initial : s.Initial) {es : List Event}
    (possible : s.Possible es) : (s.afterAll es).NextFree := by
  have roster := initial.roster.afterAll es
  have orderly := initial.orderly.afterAll initial.roster possible
  exact ⟨roster.numbered, fun task member => roster.lt_taskCount (orderly.queued task member),
    initial.lt_taskCount_of_answered es⟩

/-! ## No invocation runs -/

/-- No invocation runs, and what is known of tasks is about tasks that have begun. -/
structure Silent (s : State) : Prop where
  tasks : ∀ t ∈ s.tasks, t.1 < s.taskCount
  queue : ∀ task ∈ s.queue, task < s.taskCount
  answers : ∀ given ∈ s.answers, given.1 < s.taskCount
  contexts : ∀ id, s.isRunning id = false

theorem Initial.silent {s : State} (initial : s.Initial) {es : List Event}
    (possible : s.Possible es) (idle : ∀ id, (s.afterAll es).isRunning id = false) :
    (s.afterAll es).Silent := by
  obtain ⟨tasks, queue, answers⟩ := initial.nextFree possible
  exact ⟨tasks, queue, answers, idle⟩

theorem Silent.nextFree {s : State} (silent : s.Silent) : s.NextFree :=
  ⟨silent.tasks, silent.queue, silent.answers⟩

theorem isRunning_of_store {s : State} (idle : ∀ c ∈ s.registry.store, c.inProgress = false)
    (id : ContextId) : s.isRunning id = false := by
  cases found : s.registry.context? id with
  | none => simp [isRunning, found]
  | some c =>
    rw [isRunning_of_found found]
    exact idle c (List.mem_of_getElem? found)

theorem Silent.withRegistry {s : State} (silent : s.Silent) {r : Registry}
    (store : r.store = s.registry.store) : { s with registry := r }.Silent := by
  refine ⟨silent.tasks, silent.queue, silent.answers, fun id => ?_⟩
  have same : r.context? id = s.registry.context? id := by
    unfold Registry.context?
    rw [store]
  unfold isRunning
  rw [same]
  exact silent.contexts id

/-! ## The sections of one task -/

/-- A task comes from one state to the other while nothing else happens. -/
def Leads (task : TaskId) (s later : State) : Prop :=
  ∃ n, s.Possible (.replicate n (.advance task)) ∧ s.afterAll (.replicate n (.advance task)) = later

theorem Leads.refl (task : TaskId) (s : State) : Leads task s s := ⟨0, trivial, rfl⟩

theorem Leads.trans {task : TaskId} {s middle later : State} (first : Leads task s middle)
    (second : Leads task middle later) : Leads task s later := by
  obtain ⟨n, possible, rfl⟩ := first
  obtain ⟨m, possibleRest, rfl⟩ := second
  refine ⟨n + m, ?_, ?_⟩ <;> rw [← List.replicate_append_replicate]
  · exact possible_append.mpr ⟨possible, possibleRest⟩
  · exact afterAll_append ..

theorem leads_advance {s : State} {task : TaskId} (ready : task ∈ s.queue) :
    Leads task s (s.advance task) :=
  ⟨1, ⟨ready, trivial⟩, rfl⟩

/-- The newest task has ended with an answer, and the registry has become another. -/
def concluded (s : State) (r : Registry) (answer : Answer) : State :=
  { s with
    registry := r
    taskCount := s.taskCount + 1
    answers := s.answers ++ [(s.taskCount, answer)] }

/-- An operation that has the program to itself ends with an answer; all that has become of the
program by then is that its registry is another. -/
def Concludes (s : State) (o : Operation) (r : Registry) (answer : Answer) : Prop :=
  ∃ n, let alone : List Event := .perform o :: .replicate n (.advance s.taskCount)
    s.Possible alone ∧ s.afterAll alone = s.concluded r answer

theorem concludes_of_leads {s : State} {o : Operation} {r : Registry} {answer : Answer}
    (leads : Leads s.taskCount (s.begin o.activity) (s.concluded r answer)) :
    s.Concludes o r answer := by
  obtain ⟨n, possible, ends⟩ := leads
  exact ⟨n, ⟨trivial, possible⟩, ends⟩

theorem leads_advance_begin (s : State) (a : Activity) :
    Leads s.taskCount (s.begin a) ((s.begin a).advance s.taskCount) :=
  leads_advance (List.mem_append_right _ (List.mem_singleton_self _))

theorem NextFree.activity?_begin {s : State} (free : s.NextFree) (a : Activity) :
    (s.begin a).activity? s.taskCount = some a := by
  have unknown : s.tasks.find? (fun t => t.1 == s.taskCount) = none := by
    refine List.find?_eq_none.mpr fun t member same => ?_
    exact absurd (beq_iff_eq.mp same) (Nat.ne_of_lt (free.tasks t member))
  simp [begin, activity?, List.find?_append, unknown]

theorem NextFree.setActivity_begin {s : State} (free : s.NextFree) (a b : Activity) (r : Registry) :
    { s.begin a with registry := r }.setActivity s.taskCount b =
      { s with registry := r }.begin b := by
  have others : s.tasks.map (fun t => if t.1 = s.taskCount then (s.taskCount, b) else t) =
      s.tasks := by
    refine (List.map_congr_left fun t member => ?_).trans (List.map_id _)
    exact if_neg (Nat.ne_of_lt (free.tasks t member))
  simp [setActivity, begin, others]

theorem NextFree.leads_of_ready {s : State} (free : s.NextFree) {a b : Activity} {r : Registry}
    (turns : (s.begin a).turn s.taskCount a =
      ⟨{ s.begin a with registry := r }, .ready b, [], []⟩) :
    Leads s.taskCount (s.begin a) ({ s with registry := r }.begin b) := by
  have moved : (s.begin a).advance s.taskCount = { s with registry := r }.begin b := by
    rw [advance_eq (free.activity?_begin a), turns]
    exact free.setActivity_begin a b r
  rw [← moved]
  exact leads_advance_begin s a

theorem NextFree.leads_of_parked {s : State} (free : s.NextFree) {a b : Activity} {r : Registry}
    (turns : (s.begin a).turn s.taskCount a =
      ⟨{ s.begin a with registry := r }, .parked b, [], []⟩) :
    Leads s.taskCount (s.begin a) (({ s with registry := r }.begin b).park s.taskCount) := by
  have moved : (s.begin a).advance s.taskCount =
      ({ s with registry := r }.begin b).park s.taskCount := by
    rw [advance_eq (free.activity?_begin a), turns]
    exact congrArg (State.park · s.taskCount) (free.setActivity_begin a b r)
  rw [← moved]
  exact leads_advance_begin s a

/-- A section that ends the newest task leaves no trace of it but the answer. -/
theorem NextFree.leads_of_ended {s : State} (free : s.NextFree) {a : Activity} {answer : Answer}
    {r : Registry}
    (turns : (s.begin a).turn s.taskCount a =
      ⟨{ s.begin a with registry := r }, .ended answer, [], []⟩) :
    Leads s.taskCount (s.begin a) (s.concluded r answer) := by
  have others : s.tasks.filter (fun t => t.1 != s.taskCount) = s.tasks :=
    List.filter_eq_self.mpr fun t member => bne_iff_ne.mpr (Nat.ne_of_lt (free.tasks t member))
  have absent : s.taskCount ∉ s.queue := fun member =>
    Nat.lt_irrefl _ (free.queue s.taskCount member)
  have moved : (s.begin a).advance s.taskCount = s.concluded r answer := by
    rw [advance_eq (free.activity?_begin a), turns]
    simp [follow, finish, dropTask, begin, concluded, others, List.erase_append_right _ absent]
  rw [← moved]
  exact leads_advance_begin s a

theorem NextFree.concluded {s : State} (free : s.NextFree) (r : Registry) (answer : Answer) :
    (s.concluded r answer).NextFree := by
  refine ⟨fun t member => Nat.lt_succ_of_lt (free.tasks t member),
    fun task member => Nat.lt_succ_of_lt (free.queue task member), fun given member => ?_⟩
  obtain before | last := List.mem_append.mp member
  · exact Nat.lt_succ_of_lt (free.answers given before)
  · rw [List.mem_singleton.mp last]
    exact Nat.lt_succ_self s.taskCount

theorem Silent.concluded {s : State} (silent : s.Silent) {r : Registry}
    (store : r.store = s.registry.store) (answer : Answer) : (s.concluded r answer).Silent := by
  obtain ⟨tasks, queue, answers⟩ := silent.nextFree.concluded r answer
  exact ⟨tasks, queue, answers, (silent.withRegistry store).contexts⟩

end PawnQuery.Engine.State
