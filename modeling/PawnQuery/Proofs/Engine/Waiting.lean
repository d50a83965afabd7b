import PawnQuery.Proofs.Engine.Queue
import PawnQuery.Proofs.Engine.Results

/-!
# Waiting for the end of an invocation

Whoever asks to be told of the end of an invocation while one runs waits for that one: its end, and
nothing else, brings them all back, in the order in which they asked.  Those who were dropped
meanwhile are left out, and the others do not notice.  The section that brings them back has
published what the invocation found before.
-/

namespace PawnQuery.Engine

open PawnQuery.Compiler (Invocation Reply SpawnFault)

namespace State

/-- What the compiler answers when a task hands it the invocation that it carries. -/
def answeredBy (carrier : TaskId) (s : State) : Event → List (Except SpawnFault Reply)
  | .advance task =>
    if task = carrier then
      match s.activity? carrier with
      | some (.launch _ invocation) => [(s.compiler.spawn s.files invocation).2]
      | _ => []
    else []
  | _ => []

/-- The invocation of a context that still runs after a list of events, and where it began. -/
structure Underway (s : State) (id : ContextId) (es before : List Event) (start : Event)
    (during : List Event) (carrier : TaskId) : Prop where
  split : es = before ++ start :: during
  begins : begunBy id (s.afterAll before) start = [carrier]
  goesOn : ((s.afterAll before).after start).history (endedBy id) during = []

theorem Underway.afterAll {s : State} {id : ContextId} {es before : List Event} {start : Event}
    {during : List Event} {carrier : TaskId}
    (underway : s.Underway id es before start during carrier) :
    s.afterAll es = ((s.afterAll before).after start).afterAll during := by
  rw [underway.split, afterAll_append, afterAll_cons]

/-! ## The invocation that runs -/

theorem invocations_eq_singleton {s : State} (steady : s.Steady) {id : ContextId}
    (running : s.invocations id ≠ []) : ∃ carrier, s.invocations id = [carrier] := by
  cases found : s.registry.context? id with
  | none => exact absurd (steady.owned id found) running
  | some c =>
    obtain ⟨-, -, nobody⟩ | ⟨-, alone⟩ := steady.paced id c found
    · exact absurd nobody running
    · exact alone

theorem Steady.isRunning_eq_false_iff {s : State} (steady : s.Steady) {id : ContextId} :
    s.isRunning id = false ↔ s.invocations id = [] := by
  cases found : s.registry.context? id with
  | none => exact iff_of_true (by simp [isRunning, found]) (steady.owned id found)
  | some c =>
    rw [isRunning_of_found found]
    obtain ⟨idle, -, nobody⟩ | ⟨busy, task, alone⟩ := steady.paced id c found
    · exact iff_of_true (by simp [Context.inProgress, idle]) nobody
    · exact iff_of_false (by simp [Context.inProgress, busy]) (by simp [alone])

theorem begunBy_of_running {s : State} (steady : s.Steady) {id : ContextId}
    (running : s.invocations id ≠ []) (e : Event) : begunBy id s e = [] := by
  cases found : s.registry.context? id with
  | none => exact begunBy_of_missing found e
  | some c =>
    obtain ⟨-, -, nobody⟩ | ⟨busy, -⟩ := steady.paced id c found
    · exact absurd nobody running
    · have nothing : c.begin = (c, none) := by simp [Context.begin, Context.inProgress, busy]
      exact if_neg fun begins => by simp [found, nothing] at begins

theorem invocations_after_of_running {s : State} (steady : s.Steady) (roster : s.Roster) {e : Event}
    (allowed : s.Allows e) {id : ContextId} {carrier : TaskId}
    (running : s.invocations id = [carrier]) (goesOn : endedBy id s e = []) :
    (s.after e).invocations id = [carrier] := by
  rw [invocations_after roster allowed id,
    begunBy_of_running steady (by rw [running]; exact List.cons_ne_nil _ _), goesOn, running]
  rfl

/-- An invocation begins for a context at rest, and a new task is about to hand it over. -/
theorem activity?_of_begunBy {s : State} (roster : s.Roster) {id : ContextId} {e : Event}
    {carrier : TaskId} (begins : begunBy id s e = [carrier]) :
    ∃ c invocation, s.registry.context? id = some c ∧ c.progress = 0 ∧
      c.begin = ({ c with progress := 1 }, some invocation) ∧
      s.contextChange? e id = some .begin ∧
      (s.after e).activity? carrier = some (.launch id invocation) := by
  unfold begunBy at begins
  split at begins
  next condition =>
    obtain ⟨made, starts⟩ := condition
    obtain ⟨c, found, starts⟩ := (Option.any_eq_true _ _).mp starts
    obtain equal | ⟨target, idle, -, equal⟩ := c.begin_cases
    · rw [equal] at starts
      cases starts
    · have started : (s.startInvocation id).2 =
          [.launch id (.ofTarget target c.settings.options)] := by
        simp only [startInvocation, found, equal]
      obtain rfl := List.singleton_inj.mp begins
      refine ⟨c, _, found, idle, equal, made, ?_⟩
      cases touches_of_contextChange? made with
      | run =>
        have same := sameTasks_startInvocation s id
        simp only [after, run, started, List.foldl_cons, List.foldl_nil]
        rw [← same.taskCount]
        exact activity?_begin_new (roster.congr same.tasks same.taskCount) _
      | @request task assignments added activity =>
        have same := sameTasks_turn s task (.request id assignments added)
        have begun : (s.turn task (.request id assignments added)).started =
            [.launch id (.ofTarget target c.settings.options)] := started
        rw [after, advance_eq activity, activity?_congr (tasks_foldl_wake _ _), begun,
          List.foldl_cons, List.foldl_nil]
        have counted := (taskCount_follow (s.turn task (.request id assignments added)).state task
          (s.turn task (.request id assignments added)).next).trans same.taskCount
        rw [← counted]
        exact activity?_begin_new
          ((roster.congr same.tasks same.taskCount).follow task _) _
  next => cases begins

/-- What has become of an invocation that has not ended: it is still to be handed over, or the
compiler has answered it, or refused it. -/
def Stage (s : State) (id : ContextId) (carrier : TaskId) (invocation : Invocation)
    (answers : List (Except SpawnFault Reply)) : Prop :=
  (answers = [] ∧ s.activity? carrier = some (.launch id invocation)) ∨
    (∃ reply, answers = [.ok reply] ∧ s.activity? carrier = some (.collect id reply)) ∨
    (∃ fault, answers = [.error fault] ∧ s.activity? carrier = some (.giveUp id))

theorem Stage.carries {s : State} {id : ContextId} {carrier : TaskId} {invocation : Invocation}
    {answers : List (Except SpawnFault Reply)} (stage : s.Stage id carrier invocation answers) :
    ∃ a, s.activity? carrier = some a ∧ a.invocation? = some id := by
  obtain ⟨-, activity⟩ | ⟨reply, -, activity⟩ | ⟨fault, -, activity⟩ := stage <;>
    exact ⟨_, activity, rfl⟩

theorem answeredBy_of_elsewhere {s : State} {e : Event} {carrier : TaskId}
    (notMoved : e ≠ .advance carrier) : answeredBy carrier s e = [] := by
  cases e with
  | advance task => exact if_neg fun equal => notMoved (by rw [equal])
  | _ => rfl

theorem Stage.after {s : State} (roster : s.Roster) {e : Event} (allowed : s.Allows e)
    {id : ContextId} {carrier : TaskId} {invocation : Invocation}
    {answers : List (Except SpawnFault Reply)} (stage : s.Stage id carrier invocation answers)
    (goesOn : endedBy id s e = []) :
    (s.after e).Stage id carrier invocation (answers ++ answeredBy carrier s e) := by
  obtain ⟨a, known, carries⟩ := stage.carries
  have old : carrier < s.taskCount := roster.number_lt known
  by_cases moved : e = .advance carrier
  · subst moved
    obtain ⟨rfl, activity⟩ | ⟨reply, -, activity⟩ | ⟨fault, -, activity⟩ := stage
    · have answered : answeredBy carrier s (.advance carrier) =
          [(s.compiler.spawn s.files invocation).2] := by
        simp [answeredBy, activity]
      rw [answered, List.nil_append]
      simp only [Stage, State.after]
      rw [activity?_advance activity old, if_pos rfl]
      simp only [turn, launch]
      cases spawned : s.compiler.spawn s.files invocation with
      | mk compiler outcome =>
        cases outcome with
        | error fault => exact .inr (.inr ⟨fault, rfl, rfl⟩)
        | ok reply =>
          refine .inr (.inl ⟨reply, rfl, ?_⟩)
          simp only
          split <;> rfl
    · simp [endedBy, activity, Activity.ended?] at goesOn
    · simp [endedBy, activity, Activity.ended?] at goesOn
  · -- Nobody waits for a task that carries an invocation, so nobody can drop it.
    have notDropped : e ≠ .cancel carrier := by
      rintro rfl
      obtain ⟨b, other, waits⟩ := (Option.any_eq_true _ _).mp allowed
      rw [known] at other
      cases other
      have plain := not_isBackground_invocation? (by simpa using waits)
      rw [plain] at carries
      cases carries
    rw [answeredBy_of_elsewhere moved, List.append_nil]
    unfold Stage
    rw [activity?_after old moved notDropped]
    exact stage

/-! ## What an invocation that runs leaves alone -/

/-- Only setting a main file anew touches the tables of a context while no invocation ends. -/
theorem tables_after {s : State} {id : ContextId} {c : Context}
    (found : s.registry.context? id = some c) {e : Event} (goesOn : endedBy id s e = []) :
    ∃ later, (s.after e).registry.context? id = some later ∧
      later.diagnostics = c.diagnostics ∧
      later.symbols = if clears id s e = true then {} else c.symbols := by
  obtain ⟨later, foundLater, ⟨task, reply, rfl, activity, -⟩ | ⟨-, results⟩⟩ :=
    results_after found e
  · simp [endedBy, activity, Activity.ended?] at goesOn
  · refine ⟨later, foundLater, ?_⟩
    split at results
    next clearsNow =>
      rw [if_pos clearsNow]
      exact ⟨congrArg Context.Results.diagnostics results,
        congrArg Context.Results.symbols results⟩
    next keeps =>
      rw [if_neg keeps]
      exact ⟨congrArg Context.Results.diagnostics results,
        congrArg Context.Results.symbols results⟩

/-- What holds while an invocation runs, `old` being its context when the invocation began and
`during` what has happened since. -/
structure Holds (start : State) (id : ContextId) (carrier : TaskId) (invocation : Invocation)
    (old : Context) (during : List Event) : Prop where
  running : (start.afterAll during).invocations id = [carrier]
  waiting : (start.afterAll during).waitersOf id = start.history (callsBy id) during
  dropped : ∀ task, .cancel task ∈ during →
    task < (start.afterAll during).taskCount ∧ (start.afterAll during).activity? task = none
  live : ∀ task ∈ start.history (callsBy id) during,
    (start.afterAll during).hasTask task = true ↔ .cancel task ∉ during
  stage : (start.afterAll during).Stage id carrier invocation
    (start.history (answeredBy carrier) during)
  tables : ∃ c, (start.afterAll during).registry.context? id = some c ∧
    c.diagnostics = old.diagnostics ∧
    c.symbols = if start.Always (fun s e => clears id s e = false) during then old.symbols else {}

theorem dropped_after {s : State} (roster : s.Roster) {e : Event} (allowed : s.Allows e)
    {during : List Event}
    (dropped : ∀ task, .cancel task ∈ during → task < s.taskCount ∧ s.activity? task = none)
    (task : TaskId) (cancels : .cancel task ∈ during ++ [e]) :
    task < (s.after e).taskCount ∧ (s.after e).activity? task = none := by
  obtain before | now := List.mem_append.mp cancels
  · obtain ⟨old, ended⟩ := dropped task before
    exact ⟨Nat.lt_of_lt_of_le old (taskCount_le_after s e), activity?_after_of_ended old ended e⟩
  · obtain rfl := List.mem_singleton.mp now
    obtain ⟨a, activity, -⟩ := (Option.any_eq_true _ _).mp allowed
    have old : task < s.taskCount := roster.number_lt activity
    refine ⟨Nat.lt_of_lt_of_le old (taskCount_le_after s _), ?_⟩
    exact (activity?_dropTask s task task).trans (if_pos rfl)

theorem Holds.after {start : State} {id : ContextId} {carrier : TaskId} {invocation : Invocation}
    {old : Context} {during : List Event} (holds : start.Holds id carrier invocation old during)
    (roster : (start.afterAll during).Roster) (steady : (start.afterAll during).Steady)
    (orderly : (start.afterAll during).Orderly) {e : Event}
    (allowed : (start.afterAll during).Allows e)
    (goesOn : endedBy id (start.afterAll during) e = []) :
    start.Holds id carrier invocation old (during ++ [e]) := by
  have dropped := dropped_after roster allowed holds.dropped
  refine ⟨?_, ?_, ?_, ?_, ?_, ?_⟩
  · simpa using invocations_after_of_running steady roster allowed holds.running goesOn
  · rw [history_append, afterAll_append, afterAll_cons, afterAll_nil, waitersOf_after,
      if_pos goesOn, holds.waiting]
    simp [history]
  · simpa using dropped
  · intro task member
    rw [history_append] at member
    simp only [history, List.append_nil] at member
    rw [afterAll_append, afterAll_cons, afterAll_nil, hasTask_eq]
    by_cases gone : .cancel task ∈ during ++ [e]
    · simp [dropped task gone, gone]
    · have notDropped : e ≠ .cancel task := fun equal => gone (by simp [equal])
      obtain before | calls := List.mem_append.mp member
      · have waits : task ∈ (start.afterAll during).waitersOf id := by
          rw [holds.waiting]
          exact before
        rw [activity?_after_of_waits orderly allowed waits notDropped, ← hasTask_eq,
          holds.live task before]
        simp [notDropped.symm]
      · obtain ⟨-, -, -, _, after, -, -, now⟩ := mem_callsBy orderly roster calls
        simp [now, gone]
  · rw [history_append, afterAll_append]
    simpa [history] using holds.stage.after roster allowed goesOn
  · obtain ⟨c, found, diagnostics, symbols⟩ := holds.tables
    obtain ⟨later, foundLater, same, cleared⟩ := tables_after found goesOn
    refine ⟨later, by simpa using foundLater, same.trans diagnostics, ?_⟩
    rw [cleared, symbols]
    by_cases now : clears id (start.afterAll during) e = true
    · simp [now]
    · simp [now]

theorem holds_start {s : State} (roster : s.Roster) (steady : s.Steady) {id : ContextId}
    {e : Event} (allowed : s.Allows e) {carrier : TaskId} (begins : begunBy id s e = [carrier]) :
    ∃ old invocation, s.registry.context? id = some old ∧
      (s.after e).Holds id carrier invocation old [] := by
  obtain ⟨old, invocation, found, idle, equal, made, activity⟩ := activity?_of_begunBy roster begins
  have goesOn : endedBy id s e = [] := by
    obtain ⟨_, _, -, same, -⟩ | ⟨-, goesOn⟩ := endedBy_of_touches (touches_of_contextChange? made)
    · cases same
    · exact goesOn
  have pace := steady.waiters_eq_nil found idle
  refine ⟨old, invocation, found, ?_, ?_, by simp, by simp [history], .inl ⟨rfl, activity⟩, ?_⟩
  · rw [afterAll_nil, invocations_after roster allowed id, begins, goesOn, pace.2]
    rfl
  · rw [afterAll_nil, waitersOf_after, if_pos goesOn, waitersOf_of_found found, pace.1,
      callsBy_of_not_enqueue (by simp [made])]
    rfl
  · refine ⟨_, context?_after found e, ?_⟩
    simp [made, Context.apply, equal]

theorem Holds.afterAll {start : State} {id : ContextId} {carrier : TaskId}
    {invocation : Invocation} {old : Context}
    (holds : start.Holds id carrier invocation old []) (roster : start.Roster)
    (steady : start.Steady) (orderly : start.Orderly) {during : List Event}
    (possible : start.Possible during) (goesOn : start.history (endedBy id) during = []) :
    start.Holds id carrier invocation old during := by
  induction during using List.reverseRecOn with
  | nil => exact holds
  | append_singleton during e inductionHypothesis =>
    obtain ⟨before, allowed, -⟩ := possible_append.mp possible
    rw [history_append] at goesOn
    obtain ⟨goesOnBefore, goesOnNow⟩ := List.append_eq_nil_iff.mp goesOn
    exact (inductionHypothesis before goesOnBefore).after (roster.afterAll during)
      (steady.afterAll roster before) (orderly.afterAll roster before) allowed
      (by simpa [history] using goesOnNow)

/-! ## The invocation that runs after a run -/

theorem exists_underway {s : State} (initial : s.Initial) {id : ContextId} {es : List Event}
    (possible : s.Possible es) (running : (s.afterAll es).invocations id ≠ []) :
    ∃ before start during carrier, s.Underway id es before start during carrier := by
  induction es using List.reverseRecOn with
  | nil => exact absurd (by simp [invocations, initial.tasks]) running
  | append_singleton es e inductionHypothesis =>
    obtain ⟨before, allowed, -⟩ := possible_append.mp possible
    have roster := initial.roster.afterAll es
    rw [afterAll_append, afterAll_cons, afterAll_nil, invocations_after roster allowed id]
      at running
    by_cases begins : begunBy id (s.afterAll es) e = []
    · rw [begins, List.append_nil] at running
      have ran : (s.afterAll es).invocations id ≠ [] := by
        intro nobody
        rw [nobody] at running
        exact running rfl
      obtain ⟨earlier, start, during, carrier, underway⟩ := inductionHypothesis before ran
      refine ⟨earlier, start, during ++ [e], carrier, by rw [underway.split]; simp, underway.begins,
        ?_⟩
      rw [history_append, underway.goesOn, ← underway.afterAll]
      have steady := initial.steady.afterAll initial.roster before
      obtain ⟨ran, alone⟩ := invocations_eq_singleton steady ran
      simp only [history, List.nil_append, List.append_nil]
      refine List.eq_nil_iff_forall_not_mem.mpr fun task ends => ?_
      have member := mem_invocations_of_mem_endedBy roster ends
      rw [alone, List.mem_singleton] at member
      rw [alone, ← member] at running
      simp [ends] at running
    · refine ⟨es, e, [], (s.afterAll es).taskCount, rfl, ?_, rfl⟩
      unfold begunBy at begins ⊢
      split at begins
      next condition => rw [if_pos condition]
      next => exact absurd rfl begins

/-- The invariants are carried to where the invocation began, and from there on with it. -/
theorem Underway.holds {s : State} (initial : s.Initial) {id : ContextId} {es before : List Event}
    (possible : s.Possible es) {start : Event} {during : List Event} {carrier : TaskId}
    (underway : s.Underway id es before start during carrier) :
    ∃ old invocation, (s.afterAll before).registry.context? id = some old ∧
      ((s.afterAll before).after start).Holds id carrier invocation old during := by
  rw [underway.split, possible_append, possible_cons] at possible
  obtain ⟨possibleBefore, allowed, possibleDuring⟩ := possible
  have roster := initial.roster.afterAll before
  have steady := initial.steady.afterAll initial.roster possibleBefore
  have orderly := initial.orderly.afterAll initial.roster possibleBefore
  obtain ⟨old, invocation, found, atStart⟩ := holds_start roster steady allowed underway.begins
  exact ⟨old, invocation, found, atStart.afterAll (roster.after start)
    (steady.after roster allowed) (orderly.after roster allowed) possibleDuring underway.goesOn⟩

/-! ## The end of an invocation -/

/-- The end of an invocation takes nobody out of the queue but a task that ends with it. -/
theorem queue_follow_of_plain {s : State} (orderly : s.Orderly) (roster : s.Roster) {task : TaskId}
    {a : Activity} (activity : s.activity? task = some a) (plain : (s.turn task a).next.IsPlain) :
    (s.follow task (s.turn task a).next).queue = s.queue.filter (s.advance task).hasTask := by
  have live : ∀ other ∈ (s.follow task (s.turn task a).next).queue,
      (s.advance task).hasTask other = true := fun other member =>
    (requeued_advance orderly roster activity).live other (List.mem_append_left _ member)
  have old : task < s.taskCount := roster.number_lt activity
  have moved := activity?_advance activity old
  cases goes : (s.turn task a).next with
  | parked b => rw [goes] at plain; cases plain
  | ready b =>
    rw [goes] at live
    exact (List.filter_eq_self.mpr live).symm
  | ended answer =>
    rw [goes] at live moved
    have gone : (s.advance task).hasTask task = false := by
      rw [hasTask_eq, moved, if_pos rfl]
      rfl
    refine (orderly.once.erase_eq_filter task).trans (List.filter_congr fun other member => ?_)
    by_cases same : other = task
    · simp [same, gone]
    · have stays := live other ((List.Nodup.mem_erase_iff orderly.once).mpr ⟨same, member⟩)
      simp [same, stays]

theorem awaitContext_of_idle {s : State} {id : ContextId} (idle : s.isRunning id = false)
    (task : TaskId) (next : Activity) : s.awaitContext task id next = ⟨s, .ready next, [], []⟩ := by
  unfold awaitContext
  cases found : s.registry.context? id with
  | none => rfl
  | some c =>
    rw [isRunning_of_found found] at idle
    simp [Context.enqueue, idle]

/-- The tables that the end of an invocation leaves behind, `old` being the context when it began
and `c` just before it ended: those of its report, or if the compiler refused it those that were
there.  They are still those from before the invocation, unless the symbols have gone meanwhile with
the main file that they were for. -/
def Publishes (id : ContextId) (carrier : TaskId) (begun : State) (during : List Event)
    (old c released : Context) : Prop :=
  (∃ reply, begun.history (answeredBy carrier) during = [.ok reply] ∧
      released.symbols = (c.collect reply.output).symbols ∧
      released.diagnostics = (c.collect reply.output).diagnostics) ∨
    (∃ fault, begun.history (answeredBy carrier) during = [.error fault] ∧
      released.symbols = c.symbols ∧ released.diagnostics = c.diagnostics ∧
      c.diagnostics = old.diagnostics ∧
      c.symbols =
        if begun.Always (fun s e => clears id s e = false) during then old.symbols else {})

theorem Holds.publishes {begun : State} {id : ContextId} {carrier : TaskId}
    {invocation : Invocation} {old : Context} {during : List Event}
    (holds : begun.Holds id carrier invocation old during) {c : Context}
    (found : (begun.afterAll during).registry.context? id = some c)
    (ends : endedBy id (begun.afterAll during) (.advance carrier) ≠ []) :
    ∃ released,
      ((begun.afterAll during).after (.advance carrier)).registry.context? id = some released ∧
        released.progress = c.progress - 1 ∧ released.waiters = [] ∧
        Publishes id carrier begun during old c released := by
  obtain ⟨d, same, diagnostics, symbols⟩ := holds.tables
  rw [found] at same
  cases same
  have changed := context?_after found (.advance carrier)
  obtain ⟨-, activity⟩ | ⟨reply, answers, activity⟩ | ⟨fault, answers, activity⟩ := holds.stage
  · exact absurd (by simp [endedBy, activity, Activity.ended?]) ends
  · rw [contextChange?_of_touches (.collect activity), Option.elim_some] at changed
    obtain ⟨sameSymbols, sameDiagnostics⟩ := c.tables_apply_finish reply (begun.afterAll during).now
    exact ⟨_, changed, rfl, rfl, .inl ⟨reply, answers, sameSymbols, sameDiagnostics⟩⟩
  · rw [contextChange?_of_touches (.giveUp activity), Option.elim_some] at changed
    obtain ⟨sameSymbols, sameDiagnostics⟩ := c.tables_apply_finish_none (begun.afterAll during).now
    exact ⟨_, changed, rfl, rfl, .inr ⟨fault, answers, sameSymbols, sameDiagnostics, diagnostics,
      symbols⟩⟩

theorem Holds.queue {begun : State} {id : ContextId} {carrier : TaskId}
    {invocation : Invocation} {old : Context} {during : List Event}
    (holds : begun.Holds id carrier invocation old during)
    (roster : (begun.afterAll during).Roster) (orderly : (begun.afterAll during).Orderly)
    (ready : (begun.afterAll during).Allows (.advance carrier))
    (ends : endedBy id (begun.afterAll during) (.advance carrier) ≠ []) :
    ((begun.afterAll during).after (.advance carrier)).queue =
      (begun.afterAll during).queue.filter
          ((begun.afterAll during).after (.advance carrier)).hasTask ++
        (begun.history (callsBy id) during).filter (fun task => .cancel task ∉ during) := by
  have ending : ((begun.afterAll during).activity? carrier).bind Activity.ended? = some id := by
    by_contra other
    exact ends (if_neg other)
  obtain ⟨a, activity, ending⟩ := Option.bind_eq_some_iff.mp ending
  obtain ⟨plain, started, woken⟩ := turn_of_ended? (begun.afterAll during) carrier ending
  simp only [State.after]
  rw [queue_advance activity, queue_follow_of_plain orderly roster activity plain, started, woken,
    holds.waiting, List.length_nil, List.range'_zero, List.append_nil]
  congr 1
  refine List.filter_congr fun task calls => ?_
  have waits : task ∈ (begun.afterAll during).waitersOf id := by
    rw [holds.waiting]
    exact calls
  have same := activity?_after_of_waits orderly ready waits (by simp)
  rw [Bool.eq_iff_iff, hasTask_eq]
  simp only [State.after] at same
  rw [same, ← hasTask_eq, holds.live task calls]
  simp

theorem eq_advance_of_endedBy {s : State} (roster : s.Roster) {id : ContextId} {carrier : TaskId}
    (running : s.invocations id = [carrier]) {e : Event} (ends : endedBy id s e ≠ []) :
    e = .advance carrier := by
  obtain ⟨task, member⟩ := List.exists_mem_of_ne_nil _ ends
  have carries := mem_invocations_of_mem_endedBy roster member
  rw [running, List.mem_singleton] at carries
  subst carries
  cases e with
  | advance moved =>
    simp only [endedBy] at member
    split at member
    · rw [List.mem_singleton.mp member]
    · cases member
  | _ => cases member

end State

end PawnQuery.Engine
