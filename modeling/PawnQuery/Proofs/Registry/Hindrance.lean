import PawnQuery.Proofs.Engine.Course
import PawnQuery.Proofs.Registry.Precedence

/-!
# Searches that have to wait

A search for the owner of a path waits for one workspace after the other, and only for those whose
folders the path lies in.  Entry points come first and need no waiting; after that it depends on
which of those workspaces run whether the search comes to its end without being kept waiting.
-/

namespace PawnQuery.Engine

open PawnQuery.Registry (Candidate)

/-- The workspaces that a search has still to look into. -/
def Activity.toLookInto : Activity → List Candidate
  | .enter q _ => q.workspaces
  | .search _ left | .inspect _ _ left => left
  | _ => []

namespace State

/-- The context that a task queues up for with an event, if the invocation of one keeps it waiting. -/
def keptWaitingBy (task : TaskId) (s : State) : Event → List ContextId
  | .advance moved =>
    if moved = task then
      (((s.activity? task).bind Activity.awaited?).map (·.1)).toList.filter s.isRunning
    else []
  | _ => []

variable {s : State} {task : TaskId} {path : Path} {w : Candidate} {left : List Candidate}

/-! ## Waiting alone -/

/-- The state after the newest task has queued up for a context and stopped moving. -/
def keptWaiting (s : State) (id : ContextId) (next : Activity) : State :=
  ({ s with registry := s.registry.apply (.context id (.enqueue s.taskCount)) }.begin next).park
    s.taskCount

/-- A workspace around the path runs, and those before it neither run nor include the path. -/
def Hindered (s : State) (path : Path) (workspaces : List Candidate) (w : Candidate) : Prop :=
  ∃ earlier later, workspaces.filter (fun w => path.startsWith w.root) = earlier ++ w :: later ∧
    (∀ v ∈ earlier, s.registry.knows path v = false ∧ s.isRunning v.context = false) ∧
    s.isRunning w.context = true

/-- A search is not hindered at all, or it is by the first workspace around the path that runs. -/
theorem unhindered_or_hindered (s : State) (path : Path) (workspaces : List Candidate) :
    s.Unhindered path workspaces ∨ ∃ w, s.Hindered path workspaces w := by
  unfold Unhindered Hindered
  induction workspaces.filter (fun w => path.startsWith w.root) with
  | nil =>
    refine .inl fun earlier w later split => ?_
    cases earlier <;> cases split
  | cons v around inductionHypothesis =>
    by_cases runs : s.isRunning v.context = true
    · exact .inr ⟨v, [], around, rfl, (fun _ member => nomatch member), runs⟩
    rw [Bool.not_eq_true] at runs
    cases known : s.registry.knows path v with
    | true =>
      refine .inl fun earlier w later split unknown => ?_
      cases earlier with
      | nil => cases split; exact runs
      | cons u earlier =>
        cases split
        exact nomatch known.symm.trans (unknown v List.mem_cons_self)
    | false =>
      obtain unhindered | ⟨w, earlier, later, split, before, running⟩ := inductionHypothesis
      · refine .inl fun earlier w later split unknown => ?_
        cases earlier with
        | nil => cases split; exact runs
        | cons u earlier =>
          cases split
          exact unhindered earlier w later rfl
            fun u member => unknown u (List.mem_cons_of_mem _ member)
      · refine .inr ⟨w, v :: earlier, later, congrArg (v :: ·) split, ?_, running⟩
        rintro u (_ | ⟨_, member⟩)
        · exact ⟨known, runs⟩
        · exact before u member

theorem Hindered.next {v : Candidate} {rest : List Candidate}
    (hindered : s.Hindered path (v :: rest) w) :
    (v = w ∧ path.startsWith v.root = true ∧ s.isRunning v.context = true) ∨
      ((path.startsWith v.root = true → s.isRunning v.context = false) ∧
        s.registry.includes path v = false ∧ s.Hindered path rest w) := by
  obtain ⟨earlier, later, split, before, running⟩ := hindered
  by_cases around : path.startsWith v.root = true
  · rw [List.filter_cons_of_pos (by exact around)] at split
    cases earlier with
    | nil =>
      cases split
      exact .inl ⟨rfl, around, running⟩
    | cons u earlier =>
      obtain ⟨rfl, others⟩ := List.cons_eq_cons.mp split
      have first := before v List.mem_cons_self
      exact .inr ⟨fun _ => first.2, by simp [Registry.includes, first.1], earlier, later, others,
        fun u member => before u (List.mem_cons_of_mem _ member), running⟩
  · rw [List.filter_cons_of_neg (by exact around)] at split
    exact .inr ⟨fun here => absurd here around, by simp [Registry.includes, around],
      earlier, later, split, before, running⟩

theorem awaitContext_of_running {id : ContextId} (runs : s.isRunning id = true) (task : TaskId)
    (next : Activity) : s.awaitContext task id next =
      ⟨{ s with registry := s.registry.apply (.context id (.enqueue task)) }, .parked next, [], []⟩ := by
  obtain ⟨c, found, running⟩ := (Option.any_eq_true _ _).mp runs
  simp only [awaitContext, found, Context.enqueue, running, if_true, Registry.apply,
    Registry.changeContext, Context.apply]

theorem leads_keptWaiting (free : s.NextFree) (q : Query) (left : List Candidate)
    (hindered : s.Hindered q.path left w) :
    ∃ rest, Leads s.taskCount (s.begin (.search q left))
      (s.keptWaiting w.context (.inspect q w rest)) := by
  induction left with
  | nil =>
    obtain ⟨earlier, later, split, -⟩ := hindered
    cases earlier <;> cases split
  | cons v rest inductionHypothesis =>
    obtain ⟨rfl, around, running⟩ | ⟨idle, passed, hindered⟩ := hindered.next
    · refine ⟨rest, free.leads_of_parked ?_⟩
      simp only [turn, searchNext, if_pos around]
      have runs : (s.begin (.search q (v :: rest))).isRunning v.context = true := running
      exact awaitContext_of_running runs _ _
    · obtain ⟨others, leads⟩ := inductionHypothesis hindered
      have looks := leads_search_next free q v rest idle
      rw [if_neg (by simp [passed])] at looks
      exact ⟨others, looks.trans leads⟩

/-- A search that no entry point ends and that is hindered comes to wait. -/
theorem leads_resolve_keptWaiting (free : s.NextFree)
    (support : s.registry.workspaceSupport = true) (path : Path) (goal : Goal)
    (unnamed : ∀ v ∈ s.registry.candidates, ¬ s.registry.enters path v = true)
    (hindered : s.Hindered path s.registry.candidates w) :
    ∃ next, Leads s.taskCount (s.begin (.resolve path goal)) (s.keptWaiting w.context next) := by
  have opens := leads_opening free support path goal
  rw [List.find?_eq_none.mpr unnamed] at opens
  obtain ⟨rest, leads⟩ := leads_keptWaiting free ⟨path, goal, s.registry.candidates⟩
    s.registry.candidates hindered
  exact ⟨_, opens.trans leads⟩

/-- An operation whose task comes to a state in which it cannot move on its own does not end on its
own. -/
theorem not_concludes_of_leads {o : Operation} {r : Registry} {answer : Answer} {later : State}
    (free : s.NextFree) (leads : Leads s.taskCount (s.begin o.activity) later)
    (stuck : s.taskCount ∉ later.queue) (present : later.hasTask s.taskCount = true) :
    ¬ s.Concludes o r answer := by
  rintro ⟨m, ⟨-, possible⟩, ends⟩
  obtain ⟨n, possibleTo, rfl⟩ := leads
  have concludes : (s.begin o.activity).afterAll (.replicate m (.advance s.taskCount)) =
      s.concluded r answer := ends
  -- Both are runs of the same sections, so one of them goes on from where the other ends.
  obtain shorter | rfl | longer := Nat.lt_trichotomy m n
  · obtain ⟨more, rfl⟩ := Nat.exists_eq_add_of_lt shorter
    rw [Nat.add_assoc, ← List.replicate_append_replicate, List.replicate_succ] at possibleTo
    have ready := (possible_append.mp possibleTo).2.1
    rw [concludes] at ready
    exact Nat.lt_irrefl _ (free.queue _ ready)
  · rw [concludes, hasTask, List.any_eq_true] at present
    obtain ⟨t, member, same⟩ := present
    exact Nat.ne_of_lt (free.tasks t member) (beq_iff_eq.mp same)
  · obtain ⟨more, rfl⟩ := Nat.exists_eq_add_of_lt longer
    rw [Nat.add_assoc, ← List.replicate_append_replicate, List.replicate_succ] at possible
    exact stuck (possible_append.mp possible).2.1

/-- Who is kept waiting alone cannot move and is named among those who wait. -/
theorem keptWaiting_spec (free : s.NextFree) {id : ContextId} (runs : s.isRunning id = true)
    (next : Activity) :
    s.taskCount ∉ (s.keptWaiting id next).queue ∧
      (s.keptWaiting id next).hasTask s.taskCount = true ∧
      s.taskCount ∈ (s.keptWaiting id next).waitersOf id := by
  refine ⟨?_, by simp [keptWaiting, park, begin, hasTask], ?_⟩
  · have absent : s.taskCount ∉ s.queue := fun member => Nat.lt_irrefl _ (free.queue _ member)
    simp only [keptWaiting, park, begin]
    rw [List.erase_append_right _ absent]
    simpa using absent
  · obtain ⟨c, found, running⟩ := (Option.any_eq_true _ _).mp runs
    have after := Registry.context?_apply found (.context id (.enqueue s.taskCount))
    simp only [Registry.Change.on?, if_true, Option.elim_some, Context.apply, Context.enqueue,
      running] at after
    rw [waitersOf_of_found (s := s.keptWaiting id next) after]
    exact List.mem_append_right _ (List.mem_singleton_self _)

/-! ## Waiting among others -/

theorem history_keptWaitingBy_of_ended {es : List Event} (old : task < s.taskCount)
    (ended : s.activity? task = none) : s.history (keptWaitingBy task) es = [] := by
  induction es generalizing s with
  | nil => rfl
  | cons e es inductionHypothesis =>
    have now : keptWaitingBy task s e = [] := by
      unfold keptWaitingBy
      split
      · split
        · rw [ended]; rfl
        · rfl
      · rfl
    rw [history, now, List.nil_append]
    exact inductionHypothesis (Nat.lt_of_lt_of_le old (taskCount_le_after s e))
      (activity?_after_of_ended old ended e)

/-- The contexts of those of these workspaces whose folders the path lies in. -/
def contextsAround (path : Path) (workspaces : List Candidate) : List ContextId :=
  (workspaces.filter fun w => path.startsWith w.root).map (·.context)

theorem sublist_contextsAround {a b : Activity} (activity : s.activity? task = some a)
    (seeks : a.seeks? = some (path, .tell)) (begun : ∀ q goal, a ≠ .resolve q goal)
    (follows : s.Follows a b) :
    b.seeks? = some (path, .tell) ∧ (∀ q goal, b ≠ .resolve q goal) ∧
      (keptWaitingBy task s (.advance task) ++ contextsAround path b.toLookInto).Sublist
        (contextsAround path a.toLookInto) := by
  have waits : keptWaitingBy task s (.advance task) =
      (a.awaited?.map (·.1)).toList.filter s.isRunning := by
    simp [keptWaitingBy, activity]
  rw [waits]
  cases follows with
  | opens support | alone support => exact absurd rfl (begun _ _)
  | enters entered | unowned | includes included =>
    exact ⟨seeks, fun q goal other => (nomatch other), List.nil_sublist _⟩
  | passes passed | searches | lacks missing =>
    exact ⟨seeks, fun q goal other => (nomatch other), List.Sublist.refl _⟩
  | @awaits q w left around =>
    obtain ⟨rfl, -⟩ := Prod.mk.inj (Option.some.inj seeks)
    refine ⟨seeks, fun q goal other => (nomatch other), ?_⟩
    simp only [Activity.awaited?, Activity.toLookInto, contextsAround, around, if_true,
      Option.map_some, Option.toList_some, List.filter_cons_of_pos, List.map_cons]
    exact List.Sublist.append List.filter_sublist (List.Sublist.refl _)
  | @skips q w left elsewhere =>
    obtain ⟨rfl, -⟩ := Prod.mk.inj (Option.some.inj seeks)
    refine ⟨seeks, fun q goal other => (nomatch other), ?_⟩
    simp only [Activity.awaited?, Activity.toLookInto, contextsAround, elsewhere]
    simp [elsewhere]
  | _ => cases seeks

/-- Over a whole run a search queues up for workspaces around the path, one after the other in their
order. -/
theorem history_keptWaitingBy_sublist (roster : s.Roster) {a : Activity} {es : List Event}
    (activity : s.activity? task = some a) (seeks : a.seeks? = some (path, .tell))
    (begun : ∀ q goal, a ≠ .resolve q goal) :
    (s.history (keptWaitingBy task) es).Sublist (contextsAround path a.toLookInto) := by
  induction es generalizing s a with
  | nil => exact List.nil_sublist _
  | cons e es inductionHypothesis =>
    have old : task < s.taskCount := roster.number_lt activity
    have oldAfter : task < (s.after e).taskCount := Nat.lt_of_lt_of_le old (taskCount_le_after s e)
    by_cases moved : e = .advance task
    · subst moved
      have now : (s.after (.advance task)).activity? task = (s.turn task a).next.activity? := by
        rw [after, activity?_advance activity old, if_pos rfl]
      cases goes : (s.turn task a).next.activity? with
      | none =>
        rw [history, history_keptWaitingBy_of_ended oldAfter (now.trans goes), List.append_nil]
        obtain ⟨owner, rfl⟩ | ⟨b, stays, -⟩ := s.seeks?_turn task seeks
        · simp [keptWaitingBy, activity, Activity.awaited?]
        · rw [goes] at stays
          cases stays
      | some b =>
        obtain ⟨seeksOn, begunOn, sublist⟩ :=
          sublist_contextsAround activity seeks begun (follows_turn goes)
        exact ((List.Sublist.refl _).append
          (inductionHypothesis (roster.after _) (now.trans goes) seeksOn begunOn)).trans sublist
    · have now : keptWaitingBy task s e = [] := by
        unfold keptWaitingBy
        split
        next other => exact if_neg fun same => moved (by rw [same])
        next => rfl
      rw [history, now, List.nil_append]
      by_cases dropped : e = .cancel task
      · subst dropped
        have gone : (s.after (.cancel task)).activity? task = none :=
          (activity?_dropTask s task task).trans (if_pos rfl)
        rw [history_keptWaitingBy_of_ended oldAfter gone]
        exact List.nil_sublist _
      · exact inductionHypothesis (roster.after e)
          ((activity?_after old moved dropped).trans activity) seeks begun

theorem history_keptWaitingBy_of_unmoved {es : List Event} (unmoved : ∀ e ∈ es, e ≠ .advance task) :
    s.history (keptWaitingBy task) es = [] := by
  induction es generalizing s with
  | nil => rfl
  | cons e es inductionHypothesis =>
    have now : keptWaitingBy task s e = [] := by
      unfold keptWaitingBy
      split
      next moved =>
        exact if_neg fun same => unmoved _ List.mem_cons_self (by rw [same])
      next => rfl
    rw [history, now, List.nil_append]
    exact inductionHypothesis fun e member => unmoved e (List.mem_cons_of_mem _ member)

theorem taskCount_le_afterAll (s : State) (es : List Event) :
    s.taskCount ≤ (s.afterAll es).taskCount := by
  induction es generalizing s with
  | nil => exact Nat.le_refl _
  | cons e es inductionHypothesis =>
    exact Nat.le_trans (taskCount_le_after s e) (inductionHypothesis _)

theorem activity?_afterAll_of_unmoved {a : Activity} {es : List Event} (old : task < s.taskCount)
    (activity : s.activity? task = some a ∨ s.activity? task = none)
    (unmoved : ∀ e ∈ es, e ≠ .advance task) :
    (s.afterAll es).activity? task = some a ∨ (s.afterAll es).activity? task = none := by
  induction es generalizing s with
  | nil => exact activity
  | cons e es inductionHypothesis =>
    refine inductionHypothesis (Nat.lt_of_lt_of_le old (taskCount_le_after s e)) ?_
      fun e member => unmoved e (List.mem_cons_of_mem _ member)
    by_cases dropped : e = .cancel task
    · subst dropped
      exact .inr ((activity?_dropTask s task task).trans (if_pos rfl))
    · rw [activity?_after old (unmoved e List.mem_cons_self) dropped]
      exact activity

/-- An operation that has been asked for begins with its first section, unless it is dropped. -/
theorem asked_of_unmoved (roster : s.Roster) (o : Operation) {between : List Event}
    (unmoved : ∀ e ∈ between, e ≠ .advance s.taskCount) :
    s.taskCount < (s.afterAll (.perform o :: between)).taskCount ∧
      ((s.afterAll (.perform o :: between)).activity? s.taskCount = some o.activity ∨
        (s.afterAll (.perform o :: between)).activity? s.taskCount = none) := by
  have begins : (s.after (.perform o)).activity? s.taskCount = some o.activity :=
    activity?_begin_new roster _
  have old : s.taskCount < (s.after (.perform o)).taskCount := Nat.lt_succ_self _
  exact ⟨Nat.lt_of_lt_of_le old (taskCount_le_afterAll _ between),
    activity?_afterAll_of_unmoved (s := s.after (.perform o)) old (.inl begins) unmoved⟩

/-- A search that begins with an event looks into the workspaces that are open then. -/
theorem keptWaitingBy_sublist_of_resolve (roster : s.Roster)
    (activity : s.activity? task = some (.resolve path .tell)) (later : List Event) :
    (s.history (keptWaitingBy task) (.advance task :: later)).Sublist
      (contextsAround path s.registry.candidates) := by
  have now : keptWaitingBy task s (.advance task) = [] := by
    simp [keptWaitingBy, activity, Activity.awaited?]
  have next : (s.after (.advance task)).activity? task =
      (s.resolveOwner path .tell).next.activity? := by
    rw [after, activity?_advance activity (roster.number_lt activity), if_pos rfl, turn]
  rw [history, now, List.nil_append]
  unfold resolveOwner at next
  split at next
  · exact history_keptWaitingBy_sublist (roster.after _) next rfl (by simp)
  · refine List.Sublist.trans ?_ (List.nil_sublist _)
    exact history_keptWaitingBy_sublist (roster.after _) next rfl (by simp)

/-- However a search for an owner is interleaved with other events, it queues up for workspaces
around the path only, of those that are open when it begins, in their order. -/
theorem keptWaitingBy_sublist (roster : s.Roster) (between later : List Event)
    (unmoved : ∀ e ∈ between, e ≠ .advance s.taskCount) :
    let begun := .perform (.resolve path) :: between
    (s.history (keptWaitingBy s.taskCount) (begun ++ .advance s.taskCount :: later)).Sublist
      (contextsAround path (s.afterAll begun).registry.candidates) := by
  intro begun
  have silent : s.history (keptWaitingBy s.taskCount) begun = [] :=
    history_keptWaitingBy_of_unmoved (s := s.after (.perform (.resolve path))) unmoved
  rw [history_append, silent, List.nil_append]
  obtain ⟨old, stays | dropped⟩ := asked_of_unmoved roster (.resolve path) unmoved
  · exact keptWaitingBy_sublist_of_resolve (roster.afterAll begun) stays later
  · rw [history_keptWaitingBy_of_ended old dropped]
    exact List.nil_sublist _

theorem covers_iff_of_around {r : Registry} (around : path.startsWith w.root = true) :
    r.Covers path w ↔ r.knows path w = true := by
  rw [← r.includes_iff, Registry.includes, around, Bool.true_and]

theorem unhindered_iff {workspaces : List Candidate} : s.Unhindered path workspaces ↔
    ∀ earlier w later, workspaces.filter (fun w => path.startsWith w.root) = earlier ++ w :: later →
      (∀ v ∈ earlier, ¬ s.registry.Covers path v) → s.isRunning w.context = false := by
  unfold Unhindered
  refine forall_congr' fun earlier => forall_congr' fun w => forall_congr' fun later =>
    forall_congr' fun split => imp_congr (forall₂_congr fun v member => ?_) Iff.rfl
  have inside : v ∈ workspaces.filter fun w => path.startsWith w.root :=
    split ▸ List.mem_append_left _ member
  rw [covers_iff_of_around (List.mem_filter.mp inside).2, Bool.not_eq_true]

/-- In every state that a run comes to, asking for the owner of a path comes to its end without
waiting exactly if the path is an entry point of an open workspace, or none of the workspaces around
it runs up to the first that includes it.  If it has to wait, it comes to wait for the first of them
that runs.  However the search is interleaved with other events, it waits only for workspaces around
the path that were open when it began, for one at a time, and in their order. -/
theorem resolve_waits_iff {s : State} (initial : s.Initial) {es : List Event}
    (possible : s.Possible es) (support : (s.afterAll es).registry.workspaceSupport = true)
    (path : Path) :
    let u := s.afterAll es
    let r := u.registry
    let task := u.taskCount
    let around := r.candidates.filter fun w => path.startsWith w.root
    ((∃ key, u.Concludes (.resolve path) r (.owner key)) ↔
      (∃ w ∈ r.candidates, r.Names path w) ∨
        ∀ earlier w later, around = earlier ++ w :: later → (∀ v ∈ earlier, ¬ r.Covers path v) →
          u.isRunning w.context = false) ∧
    (∀ earlier w later, (∀ v ∈ r.candidates, ¬ r.Names path v) → around = earlier ++ w :: later →
      (∀ v ∈ earlier, ¬ r.Covers path v ∧ u.isRunning v.context = false) →
      u.isRunning w.context = true →
      ∃ n, let alone := .perform (.resolve path) :: .replicate n (.advance task)
        u.Possible alone ∧ task ∉ (u.afterAll alone).queue ∧
          task ∈ (u.afterAll alone).waitersOf w.context) ∧
    ∀ between later, (∀ e ∈ between, e ≠ .advance task) →
      let begun := .perform (.resolve path) :: between
      let v := u.afterAll begun
      u.Possible (begun ++ .advance task :: later) →
      (u.history (keptWaitingBy task) (begun ++ .advance task :: later)).Sublist
          (contextsAround path v.registry.candidates) ∧
        ∀ id other, task ∈ (v.afterAll (.advance task :: later)).waitersOf id →
          task ∈ (v.afterAll (.advance task :: later)).waitersOf other → id = other := by
  intro u r task around
  have free : u.NextFree := initial.nextFree possible
  have roster : u.Roster := initial.roster.afterAll es
  refine ⟨⟨?_, ?_⟩, ?_, ?_⟩
  · rintro ⟨key, concludes⟩
    by_cases named : ∃ w ∈ r.candidates, r.Names path w
    · exact .inl named
    obtain unhindered | ⟨w, hindered⟩ := u.unhindered_or_hindered path r.candidates
    · exact .inr (unhindered_iff.mp unhindered)
    · exfalso
      have unnamed : ∀ v ∈ r.candidates, ¬ r.enters path v = true := fun v member entered =>
        named ⟨v, member, (r.enters_iff path v).mp entered⟩
      obtain ⟨next, leads⟩ := leads_resolve_keptWaiting free support path .tell unnamed hindered
      obtain ⟨earlier, later, split, before, runs⟩ := hindered
      obtain ⟨stuck, present, -⟩ := keptWaiting_spec free runs next
      exact not_concludes_of_leads (o := .resolve path) free leads stuck present concludes
  · intro passes
    refine ⟨_, concludes_resolve_of_unhindered free path ?_⟩
    obtain ⟨w, member, names⟩ | unhindered := passes
    · exact .inl ⟨w, member, (r.enters_iff path w).mpr names⟩
    · exact .inr (unhindered_iff.mpr unhindered)
  · intro earlier w later unnamed split before runs
    have hindered : u.Hindered path r.candidates w := by
      refine ⟨earlier, later, split, fun v member => ?_, runs⟩
      have inside : v ∈ around := split ▸ List.mem_append_left _ member
      obtain ⟨uncovered, idle⟩ := before v member
      rw [covers_iff_of_around (List.mem_filter.mp inside).2, Bool.not_eq_true] at uncovered
      exact ⟨uncovered, idle⟩
    obtain ⟨next, n, possibleAlone, comes⟩ := leads_resolve_keptWaiting free support path .tell
      (fun v member entered => unnamed v member ((r.enters_iff path v).mp entered)) hindered
    obtain ⟨stuck, -, waits⟩ := keptWaiting_spec free runs next
    have alone : u.afterAll (.perform (.resolve path) :: .replicate n (.advance task)) =
        u.keptWaiting w.context next := comes
    refine ⟨n, ⟨trivial, possibleAlone⟩, ?_, ?_⟩ <;> rw [alone]
    · exact stuck
    · exact waits
  · intro between later unmoved begun v possibleAll
    refine ⟨keptWaitingBy_sublist roster between later unmoved, ?_⟩
    have orderly := (initial.orderly.afterAll initial.roster possible).afterAll roster possibleAll
    rw [afterAll_append] at orderly
    exact fun id other here there => orderly.apart id other task here there

/-- The invocation for the main file of a workspace is held back. -/
def heldBackRun : List Event :=
  let moves (task : TaskId) (n : Nat) : List Event := .replicate n (.advance task)
  [.instruct .hold, .perform (.create [{ root := ⟨"/w"⟩, mainFile := some "main.pwn" }])] ++
    moves 0 6 ++ moves 1 1

/-- The main file's owner is known at once; whoever asks for that of another file in the folder has
to wait. -/
theorem resolve_waits_heldBackRun :
    Initial {} ∧ Possible {} heldBackRun ∧
      let u := afterAll {} heldBackRun
      u.registry.workspaceSupport = true ∧ u.registry.candidates = [⟨⟨"/w"⟩, 0⟩] ∧
        u.isRunning 0 = true ∧
        (∃ key, u.Concludes (.resolve ⟨"/w/main.pwn"⟩) u.registry (.owner key)) ∧
        ∃ n, let alone := .perform (.resolve ⟨"/w/util.inc"⟩) :: .replicate n (.advance u.taskCount)
          u.Possible alone ∧ u.taskCount ∉ (u.afterAll alone).queue ∧
            u.taskCount ∈ (u.afterAll alone).waitersOf 0 := by
  have possible : Possible {} heldBackRun := by decide +kernel
  have support : (afterAll {} heldBackRun).registry.workspaceSupport = true := by decide +kernel
  have candidates : (afterAll {} heldBackRun).registry.candidates = [⟨⟨"/w"⟩, 0⟩] := by
    decide +kernel
  have runs : (afterAll {} heldBackRun).isRunning 0 = true := by decide +kernel
  have entered : (afterAll {} heldBackRun).registry.enters ⟨"/w/main.pwn"⟩ ⟨⟨"/w"⟩, 0⟩ = true := by
    decide +kernel
  have unentered : ¬ (afterAll {} heldBackRun).registry.enters ⟨"/w/util.inc"⟩ ⟨⟨"/w"⟩, 0⟩ = true := by
    decide +kernel
  obtain ⟨concludes, -, -⟩ := resolve_waits_iff initial_default possible support ⟨"/w/main.pwn"⟩
  obtain ⟨-, waits, -⟩ := resolve_waits_iff initial_default possible support ⟨"/w/util.inc"⟩
  refine ⟨initial_default, possible, support, candidates, runs, concludes.mpr (.inl ?_), ?_⟩
  · exact ⟨⟨⟨"/w"⟩, 0⟩, by simp [candidates], (Registry.enters_iff _ _ _).mp entered⟩
  · refine waits [] ⟨⟨"/w"⟩, 0⟩ [] ?_ ?_ (fun _ member => nomatch member) runs
    · intro v member names
      rw [candidates, List.mem_singleton] at member
      subst member
      exact unentered ((Registry.enters_iff _ _ _).mpr names)
    · rw [candidates]
      decide +kernel

end State

end PawnQuery.Engine
