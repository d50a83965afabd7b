import Mathlib.Data.List.Induction
import PawnQuery.Proofs.Engine.Roster

/-!
# Invocations and the counter of a context

The counter of a context says how many invocations run for it.  It is one or zero, and it is right:
it goes up where an invocation begins, and down where one ends.  The invariant that carries this
ties the counter, the queue of those who wait and the tasks that carry an invocation together:
either all three say that nothing runs, or exactly one task carries an invocation.
-/

namespace PawnQuery.Engine

namespace State

/-- The invocation that an event begins for a context, numbered as the task that carries it. -/
def begunBy (id : ContextId) (s : State) (e : Event) : List TaskId :=
  if s.contextChange? e id = some .begin ∧
      (s.registry.context? id).any (fun c => c.begin.2.isSome) = true then [s.taskCount]
  else []

/-- The invocation of a context that an event ends, numbered likewise. -/
def endedBy (id : ContextId) (s : State) : Event → List TaskId
  | .advance task => if (s.activity? task).bind Activity.ended? = some id then [task] else []
  | _ => []

/-- The tasks, the counter and the queue of a context agree: nothing runs and nobody waits, or one
invocation runs. -/
def Paced (s : State) (id : ContextId) (c : Context) : Prop :=
  (c.progress = 0 ∧ c.waiters = [] ∧ s.invocations id = []) ∨
    (c.progress = 1 ∧ ∃ task, s.invocations id = [task])

/-- All contexts are paced, and no task carries an invocation of a context that does not exist. -/
structure Steady (s : State) : Prop where
  paced : ∀ id c, s.registry.context? id = some c → s.Paced id c
  owned : ∀ id, s.registry.context? id = none → s.invocations id = []

/-! ## Where invocations end -/

theorem endedBy_of_touches {s : State} {id : ContextId} {e : Event} {change : Context.Change}
    (touches : Touches s id e change) :
    (∃ task reply, e = .advance task ∧ change = .finish reply s.now ∧ endedBy id s e = [task] ∧
        ∃ a, s.activity? task = some a ∧ a.ended? = some id) ∨
      ((∀ reply now, change ≠ .finish reply now) ∧ endedBy id s e = []) := by
  cases touches with
  | @giveUp task activity =>
    exact .inl ⟨task, none, rfl, rfl, by simp [endedBy, activity, Activity.ended?], _, activity,
      rfl⟩
  | @collect task reply activity =>
    exact .inl ⟨task, some reply, rfl, rfl, by simp [endedBy, activity, Activity.ended?], _,
      activity, rfl⟩
  | run | assign => exact .inr ⟨by simp, rfl⟩
  | request activity | assignNext activity =>
    exact .inr ⟨by simp, by simp [endedBy, activity, Activity.ended?]⟩
  | @call task a after activity awaits =>
    refine .inr ⟨by simp, ?_⟩
    have quiet : a.ended? ≠ some id := by
      intro ending
      have carries := invocation?_of_ended? ending
      rw [(invocation?_of_awaited? awaits).1] at carries
      cases carries
    simp [endedBy, activity, quiet]

theorem endedBy_of_untouched {s : State} {id : ContextId} {e : Event}
    (untouched : s.contextChange? e id = none) : endedBy id s e = [] := by
  cases e with
  | advance task =>
    simp only [endedBy]
    split
    next ending =>
      exfalso
      obtain ⟨a, activity, ending⟩ := Option.bind_eq_some_iff.mp ending
      cases a with
      | giveUp ended =>
        cases ending
        rw [contextChange?_of_touches (.giveUp activity)] at untouched
        cases untouched
      | collect ended reply =>
        cases ending
        rw [contextChange?_of_touches (.collect activity)] at untouched
        cases untouched
      | _ => cases ending
    next => rfl
  | _ => rfl

/-! ## The tasks that carry invocations -/

/-- Asking for an invocation adds the task that carries it, if one begins. -/
theorem invocations_foldl_begin (s later : State) (asked id : ContextId) :
    ((s.startInvocation asked).2.foldl begin later).invocations id =
      later.invocations id ++
        if asked = id ∧ (s.registry.context? id).any (fun c => c.begin.2.isSome) = true then
          [later.taskCount] else [] := by
  cases found : s.registry.context? asked with
  | none =>
    have nothing : ¬ (asked = id ∧
        (s.registry.context? id).any (fun c => c.begin.2.isSome) = true) := by
      rintro ⟨rfl, begins⟩
      rw [found] at begins
      cases begins
    simp [startInvocation, found, nothing]
  | some c =>
    obtain equal | ⟨target, _, _, equal⟩ := c.begin_cases
    · have nothing : ¬ (asked = id ∧
          (s.registry.context? id).any (fun c => c.begin.2.isSome) = true) := by
        rintro ⟨rfl, begins⟩
        rw [found, Option.any_some, equal] at begins
        cases begins
      simp [startInvocation, found, equal, nothing]
    · simp only [startInvocation, found, equal, List.foldl_cons, List.foldl_nil,
        invocations_begin, Activity.invocation?, Option.some.injEq]
      congr 1
      by_cases same : asked = id
      · subst same
        simp [found, equal]
      · simp [same]

theorem begunBy_of_not_begin {s : State} {id : ContextId} {e : Event}
    (differs : s.contextChange? e id ≠ some .begin) : begunBy id s e = [] :=
  if_neg fun begins => differs begins.1

theorem filter_invocations_of_quiet {s : State} {id : ContextId} {e : Event}
    (begun : begunBy id s e = []) (ended : endedBy id s e = []) :
    (s.invocations id ++ begunBy id s e).filter (fun task => task ∉ endedBy id s e) =
      s.invocations id := by
  simp [begun, ended]

theorem begunBy_advance_of_not_asked {s : State} {id : ContextId} {task : TaskId} {a : Activity}
    (activity : s.activity? task = some a) (asks : a.asked? = none) :
    begunBy id s (.advance task) = [] := by
  refine begunBy_of_not_begin fun begins => ?_
  cases touches_of_contextChange? begins with
  | request requests =>
    rw [activity] at requests
    cases requests
    cases asks

theorem not_isBackground_invocation? {a : Activity} (waits : a.isBackground = false) :
    a.invocation? = none := by
  cases a <;> first | rfl | cases waits

/-- A task that carries no invocation before and after its section leaves those that do alone. -/
theorem invocations_follow_of_uninvolved {s other : State} (roster : s.Roster)
    (same : SameTasks s other) {task : TaskId} {a : Activity} {next : Next}
    (activity : s.activity? task = some a) (plain : a.invocation? = none)
    (goes : next.activity?.bind Activity.invocation? = none) (id : ContextId) :
    (other.follow task next).invocations id = s.invocations id := by
  rw [invocations_follow_of_plain _ _ goes, invocations_congr same.tasks,
    filter_ne_invocations roster activity (by simp [plain])]

theorem invocations_advance {s : State} (roster : s.Roster) {task : TaskId} {a : Activity}
    (activity : s.activity? task = some a) (id : ContextId) :
    (s.advance task).invocations id =
      (s.invocations id ++ begunBy id s (.advance task)).filter
        (fun other => other ∉ endedBy id s (.advance task)) := by
  have same := sameTasks_turn s task a
  have quiet : a.asked? = none → begunBy id s (.advance task) = [] :=
    begunBy_advance_of_not_asked activity
  have silent : a.ended? = none → endedBy id s (.advance task) = [] := fun never => by
    simp [endedBy, activity, never]
  rw [advance_eq activity, invocations_congr (tasks_foldl_wake _ _)]
  -- What the section does to the tasks is all that matters; its other effects are forgotten.
  have kind := outline s task a
  generalize (s.turn task a).next = next at kind ⊢
  generalize (s.turn task a).started = started at kind ⊢
  generalize (s.turn task a).woken = woken at kind
  generalize (s.turn task a).state = other at same ⊢
  cases kind with
  | @launches launched invocation _ carried goes carries =>
    rw [filter_invocations_of_quiet (quiet rfl) (silent rfl), List.foldl_nil,
      invocations_follow_of_carries (roster.congr same.tasks same.taskCount)
        ((activity?_congr same.tasks task).trans activity) goes carries,
      invocations_congr same.tasks]
  | @ends _ ended _ ending plain =>
    rw [quiet (asked?_of_ended? ending), List.append_nil, List.foldl_nil,
      invocations_follow_of_plain _ _ plain.invocation?, invocations_congr same.tasks]
    by_cases its : ended = id
    · subst its
      refine List.filter_congr fun other _ => ?_
      rw [Bool.eq_iff_iff]
      simp [endedBy, activity, ending]
    · have differs : a.invocation? ≠ some id := by
        rw [invocation?_of_ended? ending]
        exact fun equal => its (Option.some.inj equal)
      rw [filter_ne_invocations roster activity differs]
      simp [endedBy, activity, ending, its]
  | @requests asked assignments added =>
    have counted : (other.follow task (.ready (.assign assignments added))).taskCount =
        s.taskCount := same.taskCount
    rw [invocations_foldl_begin, counted,
      invocations_follow_of_uninvolved roster same activity rfl rfl, silent rfl]
    simp [begunBy, contextChange?, change?, changeBy?, activity, Registry.Change.on?]
  | @calls _ after awaited awaits =>
    obtain ⟨before, behind⟩ := invocation?_of_awaited? awaits
    rw [filter_invocations_of_quiet (quiet (asked?_of_awaited? awaits))
      (silent (ended?_of_invocation? before)), List.foldl_nil]
    refine invocations_follow_of_uninvolved roster same activity before ?_ id
    unfold nextAfterCall
    split <;> exact behind
  | passes carries awaits asks plain =>
    rw [filter_invocations_of_quiet (quiet asks) (silent (ended?_of_invocation? carries)),
      List.foldl_nil]
    exact invocations_follow_of_uninvolved roster same activity carries plain.invocation? id

theorem invocations_after {s : State} (roster : s.Roster) {e : Event} (allowed : s.Allows e)
    (id : ContextId) :
    (s.after e).invocations id =
      (s.invocations id ++ begunBy id s e).filter (fun task => task ∉ endedBy id s e) := by
  have quiet : s.contextChange? e id ≠ some .begin → endedBy id s e = [] →
      (s.invocations id ++ begunBy id s e).filter (fun task => task ∉ endedBy id s e) =
        s.invocations id := fun differs ended =>
    filter_invocations_of_quiet (begunBy_of_not_begin differs) ended
  cases e with
  | advance task =>
    cases activity : s.activity? task with
    | some a => exact invocations_advance roster activity id
    | none =>
      rw [quiet (by simp [contextChange?, change?, activity]) (by simp [endedBy, activity])]
      simp only [after, advance, activity]
      rfl
  | run asked =>
    have same := sameTasks_startInvocation s asked
    simp only [after, run]
    rw [invocations_foldl_begin, invocations_congr same.tasks, same.taskCount]
    simp [begunBy, endedBy, contextChange?, change?, Registry.Change.on?]
  | cancel task =>
    rw [quiet (by simp [contextChange?, change?]) rfl]
    obtain ⟨a, activity, waits⟩ := (Option.any_eq_true _ _).mp allowed
    have plain := not_isBackground_invocation? (by simpa using waits)
    exact (invocations_dropTask s task id).trans
      (filter_ne_invocations roster activity (by simp [plain]))
  | perform operation =>
    rw [quiet (by simp [contextChange?, change?]) rfl]
    refine (invocations_begin s operation.activity id).trans ?_
    cases operation <;> simp [Operation.activity, Activity.invocation?]
  | assign asked file reparse =>
    have differs : s.contextChange? (.assign asked file reparse) id ≠ some .begin := by
      intro begins
      cases touches_of_contextChange? begins
    rw [quiet differs rfl]
    exact invocations_congr (sameTasks_assignMainFile s asked file reparse).tasks id
  | instruct instruction =>
    rw [quiet (by simp [contextChange?, change?]) rfl]
    exact invocations_congr (tasks_script s _).tasks id
  | release gate =>
    rw [quiet (by simp [contextChange?, change?]) rfl]
    exact invocations_congr ((tasks_foldl_wake _ _).trans (tasks_script s _).tasks) id
  | surround files now =>
    rw [quiet (by simp [contextChange?, change?]) rfl]
    rfl

/-! ## One step keeps the pace -/

theorem mem_invocations_of_mem_endedBy {s : State} (roster : s.Roster) {id : ContextId} {e : Event}
    {task : TaskId} (ends : task ∈ endedBy id s e) : task ∈ s.invocations id := by
  cases e with
  | advance moved =>
    simp only [endedBy] at ends
    split at ends
    next ending =>
      rw [List.mem_singleton] at ends
      subst ends
      obtain ⟨a, activity, ending⟩ := Option.bind_eq_some_iff.mp ending
      exact (mem_invocations roster).mpr ⟨a, activity, invocation?_of_ended? ending⟩
    next => cases ends
  | _ => cases ends

theorem begunBy_of_missing {s : State} {id : ContextId} (missing : s.registry.context? id = none)
    (e : Event) : begunBy id s e = [] :=
  if_neg fun begins => by simp [missing] at begins

theorem paced_of_apply {s : State} (steady : s.Steady) (roster : s.Roster) {e : Event}
    (allowed : s.Allows e) {id : ContextId} {c : Context}
    (found : s.registry.context? id = some c) {change : Context.Change}
    (made : s.contextChange? e id = some change) : (s.after e).Paced id (c.apply change) := by
  have running := invocations_after roster allowed id
  have pace := steady.paced id c found
  obtain ⟨task, reply, rfl, rfl, ended, a, activity, ending⟩ | ⟨differs, ended⟩ :=
    endedBy_of_touches (touches_of_contextChange? made)
  · have member : task ∈ s.invocations id :=
      (mem_invocations roster).mpr ⟨a, activity, invocation?_of_ended? ending⟩
    obtain ⟨-, -, nobody⟩ | ⟨counted, other, alone⟩ := pace
    · rw [nobody] at member
      cases member
    · rw [alone, List.mem_singleton] at member
      subst member
      rw [begunBy_of_not_begin (by rw [made]; simp), List.append_nil, alone, ended] at running
      refine .inl ⟨?_, rfl, by simpa using running⟩
      simp [Context.apply, Context.finish, counted]
  · rw [ended] at running
    cases change with
    | finish reply now => exact absurd rfl (differs reply now)
    | begin =>
      obtain equal | ⟨target, idle, _, equal⟩ := c.begin_cases
      · have quiet : begunBy id s e = [] := by simp [begunBy, found, equal]
        rw [quiet] at running
        simpa [Paced, Context.apply, equal, running] using pace
      · have begun : begunBy id s e = [s.taskCount] := by simp [begunBy, made, found, equal]
        obtain ⟨-, -, nobody⟩ | ⟨counted, -⟩ := pace
        · rw [begun, nobody] at running
          exact .inr ⟨by simp [Context.apply, equal], _, by simpa using running⟩
        · rw [idle] at counted
          cases counted
    | enqueue waiter =>
      rw [begunBy_of_not_begin (by rw [made]; simp)] at running
      obtain ⟨idle, equal⟩ | ⟨busy, equal⟩ := c.enqueue_cases waiter
      · simpa [Paced, Context.apply, equal, running] using pace
      · obtain ⟨idle, -⟩ | inRun := pace
        · exact absurd idle busy
        · exact .inr (by simpa [Context.apply, equal, running] using inRun)
    | setMainFile file reparse =>
      rw [begunBy_of_not_begin (by rw [made]; simp)] at running
      have same : (c.apply (.setMainFile file reparse)).progress = c.progress ∧
          (c.apply (.setMainFile file reparse)).waiters = c.waiters := by
        simp only [Context.apply, Context.setMainFile]
        split <;> exact ⟨rfl, rfl⟩
      simpa [Paced, same, running] using pace

theorem Steady.progress_eq_one {s : State} (steady : s.Steady) {id : ContextId} {c : Context}
    (found : s.registry.context? id = some c) (busy : c.progress ≠ 0) :
    c.progress = 1 ∧ ∃ task, s.invocations id = [task] := by
  obtain ⟨idle, -, -⟩ | inRun := steady.paced id c found
  · exact absurd idle busy
  · exact inRun

theorem Steady.waiters_eq_nil {s : State} (steady : s.Steady) {id : ContextId} {c : Context}
    (found : s.registry.context? id = some c) (idle : c.progress = 0) :
    c.waiters = [] ∧ s.invocations id = [] := by
  obtain ⟨-, atRest⟩ | ⟨busy, -⟩ := steady.paced id c found
  · exact atRest
  · rw [idle] at busy
    cases busy

theorem Steady.after {s : State} (steady : s.Steady) (roster : s.Roster) {e : Event}
    (allowed : s.Allows e) : (s.after e).Steady := by
  constructor
  · intro id c found
    cases before : s.registry.context? id with
    | none =>
      have fresh := isFresh_of_context?_after before e found
      have quiet := (invocations_after roster allowed id).trans
        (by rw [begunBy_of_missing before, steady.owned id before])
      exact .inl ⟨fresh.progress, fresh.waiters, quiet⟩
    | some old =>
      rw [context?_after before e] at found
      cases made : s.contextChange? e id with
      | some change =>
        rw [made] at found
        cases found
        exact paced_of_apply steady roster allowed before made
      | none =>
        rw [made] at found
        cases found
        have same : (s.after e).invocations id = s.invocations id :=
          (invocations_after roster allowed id).trans <| filter_invocations_of_quiet
            (begunBy_of_not_begin (by simp [made])) (endedBy_of_untouched made)
        simpa [Paced, same] using steady.paced id old before
  · intro id missing
    have before : s.registry.context? id = none := by
      cases old : s.registry.context? id with
      | none => rfl
      | some c => rw [context?_after old e] at missing; cases missing
    rw [invocations_after roster allowed id, begunBy_of_missing before, steady.owned id before]
    rfl

theorem Initial.steady {s : State} (initial : s.Initial) : s.Steady := by
  have nobody : ∀ id, s.invocations id = [] := fun id => by simp [invocations, initial.tasks]
  constructor
  · intro id c found
    have fresh := initial.fresh c (List.mem_of_getElem? found)
    exact .inl ⟨fresh.progress, fresh.waiters, nobody id⟩
  · exact fun id _ => nobody id

theorem Steady.afterAll {s : State} (steady : s.Steady) (roster : s.Roster) {es : List Event}
    (possible : s.Possible es) : (s.afterAll es).Steady := by
  have step : ∀ s e, Roster s ∧ Steady s → s.Allows e → Roster (s.after e) ∧ Steady (s.after e) :=
    fun s e both allowed => ⟨both.1.after e, both.2.after both.1 allowed⟩
  exact (afterAll_induction (fun s => s.Roster ∧ s.Steady) step ⟨roster, steady⟩ possible).2

/-! ## Whole runs -/

/-- The invocations of a context that have begun and those that have ended, set against the tasks
that carry one. -/
structure Accounted (s : State) (id : ContextId) (begun ended : List TaskId) : Prop where
  running : s.invocations id = begun.filter (fun task => task ∉ ended)
  numbered : ∀ task ∈ begun, task < s.taskCount
  begunOnce : begun.Nodup
  endedOnce : ended.Nodup
  within : ended ⊆ begun

theorem mem_begunBy {s : State} {id : ContextId} {e : Event} {task : TaskId}
    (begins : task ∈ begunBy id s e) : task = s.taskCount := by
  unfold begunBy at begins
  split at begins
  · exact List.mem_singleton.mp begins
  · cases begins

theorem nodup_begunBy (s : State) (id : ContextId) (e : Event) : (begunBy id s e).Nodup := by
  unfold begunBy
  split
  · exact List.nodup_singleton _
  · exact List.nodup_nil

theorem nodup_endedBy (s : State) (id : ContextId) (e : Event) : (endedBy id s e).Nodup := by
  unfold endedBy
  split
  · split
    · exact List.nodup_singleton _
    · exact List.nodup_nil
  · exact List.nodup_nil

theorem Accounted.after {s : State} {id : ContextId} {begun ended : List TaskId}
    (account : s.Accounted id begun ended) (roster : s.Roster) {e : Event}
    (allowed : s.Allows e) :
    (s.after e).Accounted id (begun ++ begunBy id s e) (ended ++ endedBy id s e) := by
  have new : ∀ task ∈ begunBy id s e, task ∉ begun ∧ task ∉ ended ∧ task ∉ endedBy id s e := by
    intro task begins
    have number := mem_begunBy begins
    have unknown : task ∉ begun := fun this =>
      absurd number (Nat.ne_of_lt (account.numbered task this))
    refine ⟨unknown, fun this => unknown (account.within this), fun this => ?_⟩
    have carried := mem_invocations_of_mem_endedBy roster this
    have before := lt_taskCount_of_mem_invocations roster carried
    exact absurd number (Nat.ne_of_lt before)
  have runs : ∀ task ∈ endedBy id s e, task ∈ begun ∧ task ∉ ended := by
    intro task ends
    have member := mem_invocations_of_mem_endedBy roster ends
    rw [account.running] at member
    simpa using member
  have running : (s.after e).invocations id =
      (begun ++ begunBy id s e).filter (fun task => task ∉ ended ++ endedBy id s e) := by
    have kept : (begunBy id s e).filter (fun task => task ∉ ended) = begunBy id s e :=
      List.filter_eq_self.mpr fun task begins => by simpa using (new task begins).2.1
    calc (s.after e).invocations id
        = (s.invocations id ++ begunBy id s e).filter (fun task => task ∉ endedBy id s e) :=
          invocations_after roster allowed id
      _ = ((begun ++ begunBy id s e).filter (fun task => task ∉ ended)).filter
            (fun task => task ∉ endedBy id s e) := by
          rw [account.running, List.filter_append begun, kept]
      _ = (begun ++ begunBy id s e).filter (fun task => task ∉ ended ++ endedBy id s e) := by
          rw [List.filter_filter]
          refine List.filter_congr fun task _ => ?_
          rw [Bool.eq_iff_iff]
          simp [and_comm]
  refine ⟨running, ?_, ?_, ?_, ?_⟩
  · intro task member
    obtain before | begins := List.mem_append.mp member
    · exact Nat.lt_of_lt_of_le (account.numbered task before) (taskCount_le_after s e)
    · have carries : task ∈ (s.after e).invocations id := by
        rw [invocations_after roster allowed id]
        simp [begins, (new task begins).2.2]
      exact lt_taskCount_of_mem_invocations (roster.after e) carries
  · refine List.nodup_append.mpr ⟨account.begunOnce, nodup_begunBy s id e, ?_⟩
    rintro task before other begins rfl
    exact (new task begins).1 before
  · refine List.nodup_append.mpr ⟨account.endedOnce, nodup_endedBy s id e, ?_⟩
    rintro task before other ends rfl
    exact (runs task ends).2 before
  · intro task member
    obtain before | ends := List.mem_append.mp member
    · exact List.mem_append_left _ (account.within before)
    · exact List.mem_append_left _ (runs task ends).1

/-- At any time the tasks that carry an invocation are those that began and have not ended. -/
theorem Initial.accounted {s : State} (initial : s.Initial) (id : ContextId) {es : List Event}
    (possible : s.Possible es) :
    (s.afterAll es).Accounted id (s.history (begunBy id) es) (s.history (endedBy id) es) := by
  -- By induction from the back: what is recorded grows at its end.
  induction es using List.reverseRecOn with
  | nil =>
    exact ⟨by simp [invocations, initial.tasks, history], by simp [history], List.nodup_nil,
      List.nodup_nil, List.Subset.refl _⟩
  | append_singleton es e inductionHypothesis =>
    obtain ⟨before, allowed, -⟩ := possible_append.mp possible
    simpa [history] using
      (inductionHypothesis before).after (initial.roster.afterAll es) allowed

/-- After every run the counter of a context is the number of its invocations that have begun and
not ended; it is one at most, and one wherever an invocation ends.  Every invocation begins once and
ends once at most, and nobody waits where the counter is zero. -/
theorem progress_counts_invocations {s : State} (initial : s.Initial) {es : List Event}
    (possible : s.Possible es) {id : ContextId} {c : Context}
    (found : (s.afterAll es).registry.context? id = some c) :
    let begun := s.history (begunBy id) es
    let ended := s.history (endedBy id) es
    c.progress = (begun.filter (fun task => task ∉ ended)).length ∧ c.progress ≤ 1 ∧
      (∀ e reply now, (s.afterAll es).contextChange? e id = some (.finish reply now) →
        c.progress = 1 ∧
          ∃ task ∈ begun, task ∉ ended ∧ endedBy id (s.afterAll es) e = [task]) ∧
      begun.Nodup ∧ ended.Nodup ∧ ended ⊆ begun ∧ (c.progress = 0 → c.waiters = []) := by
  intro begun ended
  have account := initial.accounted id possible
  have roster := initial.roster.afterAll es
  have steady := initial.steady.afterAll initial.roster possible
  have atMostOne : c.progress ≤ 1 := by
    by_cases idle : c.progress = 0
    · omega
    · exact Nat.le_of_eq (steady.progress_eq_one found idle).1
  have counted : c.progress = ((s.afterAll es).invocations id).length := by
    by_cases idle : c.progress = 0
    · rw [(steady.waiters_eq_nil found idle).2, idle, List.length_nil]
    · obtain ⟨once, task, alone⟩ := steady.progress_eq_one found idle
      rw [alone, once, List.length_singleton]
  have finishes : ∀ e reply now, (s.afterAll es).contextChange? e id = some (.finish reply now) →
      c.progress = 1 ∧ ∃ task ∈ begun, task ∉ ended ∧ endedBy id (s.afterAll es) e = [task] := by
    intro e reply now made
    obtain ⟨task, _, -, -, ends, -⟩ | ⟨differs, -⟩ :=
      endedBy_of_touches (touches_of_contextChange? made)
    · have member : task ∈ (s.afterAll es).invocations id :=
        mem_invocations_of_mem_endedBy roster (by rw [ends]; exact List.mem_singleton_self task)
      have positive : 0 < c.progress := by
        rw [counted]
        exact List.length_pos_of_mem member
      rw [account.running] at member
      obtain ⟨inside, running⟩ := List.mem_filter.mp member
      exact ⟨by omega, task, inside, by simpa using running, ends⟩
    · exact absurd rfl (differs reply now)
  exact ⟨by rw [counted, account.running], atMostOne, finishes, account.begunOnce,
    account.endedOnce, account.within, fun idle => (steady.waiters_eq_nil found idle).1⟩

/-- An invocation of a script runs for the second time, and two callers wait for it; one of them is
dropped. -/
def crowdedRun : List Event :=
  let moves (task : TaskId) (n : Nat) : List Event := .replicate n (.advance task)
  [.perform (.get ⟨"/a.pwn"⟩ true)] ++ moves 0 4 ++ [.run 0, .run 0] ++ moves 1 3 ++
    [.instruct .hold, .run 0, .perform (.wait 0), .perform (.wait 0)] ++ moves 2 1 ++
    moves 4 1 ++ moves 3 1 ++ [.cancel 4]

theorem progress_counts_invocations_crowdedRun :
    Initial {} ∧ Possible {} crowdedRun ∧
      ∃ c, (afterAll {} crowdedRun).registry.context? 0 = some c ∧ c.waiters = [4, 3] ∧
        history (begunBy 0) {} crowdedRun = [1, 2] ∧ history (endedBy 0) {} crowdedRun = [1] ∧
        c.progress = 1 := by
  have possible : Possible {} crowdedRun := by decide +kernel
  obtain ⟨c, found⟩ : ∃ c, (afterAll {} crowdedRun).registry.context? 0 = some c :=
    Option.isSome_iff_exists.mp (by decide +kernel)
  have begun : history (begunBy 0) {} crowdedRun = [1, 2] := by decide +kernel
  have ended : history (endedBy 0) {} crowdedRun = [1] := by decide +kernel
  have waiting : ((afterAll {} crowdedRun).registry.context? 0).map (·.waiters) = some [4, 3] := by
    decide +kernel
  have counted := (progress_counts_invocations initial_default possible found).1
  rw [begun, ended] at counted
  rw [found] at waiting
  exact ⟨initial_default, possible, c, found, Option.some.inj waiting, begun, ended, counted⟩

end State

end PawnQuery.Engine
