import PawnQuery.Proofs.Engine.Stages
import PawnQuery.Proofs.Registry.Strays

/-!
# What is attempted and who is told

Every invocation that begins is handed to the compiler once, and either the compiler refuses it or
the context publishes what it found.  A workspace that has a listener tells it once for every
publication, later than this.  The account of a context is balanced in every state of a run: what is
on its way is counted where it is.
-/

namespace PawnQuery

open PawnQuery.Compiler (Invocation Replay Backend)

/-- Somebody is told when the context has published. -/
def Context.isHeard (c : Context) : Bool := c.isWorkspace && c.listener != .nobody

theorem Context.isHeard_apply (c : Context) (change : Change) :
    (c.apply change).isHeard = c.isHeard := by
  simp [isHeard]

namespace Engine

/-- The context that a task works for in the background: it carries an invocation of it, or is to
tell its listener. -/
def Activity.background? : Activity → Option ContextId
  | .launch id _ | .giveUp id | .collect id _ | .tell id => some id
  | _ => none

namespace State

/-- The invocation that an event hands to the compiler, and the context that it is for. -/
def attemptedBy (s : State) : Event → List (ContextId × Invocation)
  | .advance task =>
    match s.activity? task with
    | some (.launch id invocation) => [(id, invocation)]
    | _ => []
  | _ => []

/-- The task that tells the listener of a context with an event, as often as it does so: a recorder
writes down a root, and the registry goes on with a sweep. -/
def notifiedBy (id : ContextId) (s : State) : Event → List TaskId
  | .advance task =>
    if (s.activity? task).bind Activity.background? = some id then
      let later := s.advance task
      List.replicate (later.notified.length - s.notified.length) task ++
        if later.activity? task = some .sweep then [task] else []
    else []
  | _ => []

/-- An invocation of a context is under way, and the compiler has refused it. -/
def Refused (s : State) (id : ContextId) (es : List Event) (carrier : TaskId) : Prop :=
  ∃ first start during fault, s.Underway id es first start during carrier ∧
    ((s.afterAll first).after start).history (answeredBy carrier) during = [.error fault]

variable {s : State} {id : ContextId} {es : List Event} {task : TaskId}

/-! ## What sections do outside the registry -/

theorem state_turn (s : State) (task : TaskId) {a : Activity} (launches : a.launched? = none)
    (tells : a.told? = none) :
    (s.turn task a).state = { s with registry := (s.turn task a).state.registry } := by
  have publish : ∀ id reply next, (s.publish id reply next).state =
      { s with registry := (s.publish id reply next).state.registry } := by
    intro id reply next
    unfold publish
    split <;> rfl
  have await : ∀ id next, (s.awaitContext task id next).state =
      { s with registry := (s.awaitContext task id next).state.registry } := by
    intro id next
    unfold awaitContext
    split
    · rfl
    · split <;> rfl
  cases a with
  | launch | tell => simp [Activity.launched?, Activity.told?] at launches tells
  | giveUp id => exact publish id none _
  | collect id reply => exact publish id (some reply) _
  | register todo made => cases todo <;> rfl
  | enroll added => cases added <;> rfl
  | assign assignments added =>
    cases assignments with
    | nil => rfl
    | cons a rest =>
      simp only [turn, assignNext, assignMainFile]
      split <;> rfl
  | request id assignments added =>
    simp only [turn, startInvocation]
    split
    · rfl
    · split <;> rfl
  | wait id => exact await id _
  | resolve path goal => simp only [turn, resolveOwner]; split <;> rfl
  | enter q left =>
    cases left with
    | nil => rfl
    | cons w rest => simp only [turn, enterNext]; split <;> rfl
  | search q left =>
    cases left with
    | nil => rfl
    | cons w rest =>
      simp only [turn, searchNext]
      split
      · exact await w.context _
      · rfl
  | inspect q w left => simp only [turn, inspectNext]; split <;> rfl
  | settle path goal owner => cases goal <;> rfl
  | detach removed added | clear | leave | sweep => rfl

theorem compiler_turn_of_not_launched (s : State) (task : TaskId) {a : Activity}
    (launches : a.launched? = none) : (s.turn task a).state.compiler = s.compiler := by
  cases tells : a.told? with
  | none => rw [state_turn s task launches tells]
  | some told =>
    cases a with
    | tell id =>
      simp only [turn, tell]
      split
      · rfl
      · split
        · split <;> rfl
        · rfl
    | _ => cases tells

theorem notified_turn_of_not_told (s : State) (task : TaskId) {a : Activity}
    (tells : a.told? = none) : (s.turn task a).state.notified = s.notified := by
  cases launches : a.launched? with
  | none => rw [state_turn s task launches tells]
  | some launched =>
    cases a with
    | launch id invocation =>
      simp only [turn, launch]
      split <;> rfl
    | _ => cases launches

theorem compiler_launch (s : State) (id : ContextId) (invocation : Invocation) :
    (s.launch id invocation).state.compiler = (s.compiler.spawn s.files invocation).1 := by
  unfold launch
  split
  next spawned => rw [spawned]
  next spawned => rw [spawned]

theorem compiler_foldl_begin (s : State) (activities : List Activity) :
    (activities.foldl begin s).compiler = s.compiler ∧
      (activities.foldl begin s).notified = s.notified := by
  induction activities generalizing s with
  | nil => exact ⟨rfl, rfl⟩
  | cons a activities inductionHypothesis => exact inductionHypothesis (s.begin a)

theorem compiler_advance {a : Activity} (activity : s.activity? task = some a) :
    (s.advance task).compiler = (s.turn task a).state.compiler ∧
      (s.advance task).notified = (s.turn task a).state.notified := by
  have follow : ∀ (other : State) next, (other.follow task next).compiler = other.compiler ∧
      (other.follow task next).notified = other.notified := by
    intro other next
    cases next <;> exact ⟨rfl, rfl⟩
  rw [advance_eq activity, foldl_wake]
  exact ⟨(compiler_foldl_begin _ _).1.trans (follow _ _).1,
    (compiler_foldl_begin _ _).2.trans (follow _ _).2⟩

/-! ## Attempts -/

theorem invocations_follow (r : Replay) (instruction : Compiler.Instruction) :
    (r.follow instruction).invocations = r.invocations := by
  cases instruction <;> rfl

theorem attemptedBy_of_not_launched {a : Activity} (activity : s.activity? task = some a)
    (launches : a.launched? = none) : attemptedBy s (.advance task) = [] := by
  simp only [attemptedBy, activity]
  cases a with
  | launch id invocation => cases launches
  | _ => rfl

theorem attempts_after {r : Replay} (replays : s.compiler = .replay r) (e : Event) :
    ∃ later, (s.after e).compiler = .replay later ∧
      later.invocations = r.invocations ++ (attemptedBy s e).map (·.2) := by
  have nothing : ∀ other : State, other.compiler = s.compiler → attemptedBy s e = [] →
      ∃ later, other.compiler = .replay later ∧
        later.invocations = r.invocations ++ (attemptedBy s e).map (·.2) := by
    intro other same quiet
    exact ⟨r, same.trans replays, by simp [quiet]⟩
  have script : ∀ change : Replay → Replay,
      (s.script change).compiler = .replay (change r) := by
    intro change
    simp only [State.script, replays]
  cases e with
  | advance task =>
    simp only [State.after]
    cases activity : s.activity? task with
    | none =>
      refine nothing _ ?_ (by simp [attemptedBy, activity])
      simp only [advance, activity]
      rfl
    | some a =>
      cases launches : a.launched? with
      | none =>
        refine nothing _ ?_ (attemptedBy_of_not_launched activity launches)
        rw [(compiler_advance activity).1, compiler_turn_of_not_launched s task launches]
      | some launched =>
        cases a with
        | launch id invocation =>
          refine ⟨(r.spawn invocation).1, ?_, by simp [attemptedBy, activity]⟩
          rw [(compiler_advance activity).1, turn, compiler_launch, replays]
          rfl
        | _ => cases launches
  | run asked =>
    refine nothing _ ?_ rfl
    simp only [State.after, run]
    rw [(compiler_foldl_begin _ _).1]
    unfold startInvocation
    split
    · rfl
    · split <;> rfl
  | assign changed file reparse =>
    refine nothing _ ?_ rfl
    simp only [State.after, assignMainFile]
    split <;> rfl
  | instruct instruction =>
    refine ⟨_, script _, ?_⟩
    simp [attemptedBy, invocations_follow]
  | release gate =>
    refine ⟨r.release gate, ?_, by simp [attemptedBy]; rfl⟩
    simp only [State.after, release, foldl_wake]
    exact script _
  | perform _ | cancel _ | surround _ _ => exact nothing _ rfl rfl

/-! ## Notifications -/

/-- A context that somebody listens to tells this with the last section of each task that has
published; no other section tells anybody of it. -/
theorem notifiedBy_eq (roster : s.Roster) (id : ContextId) (e : Event) :
    notifiedBy id s e = if (s.registry.context? id).any Context.isHeard = true then
      leftBy Activity.told? id s e else [] := by
  cases e with
  | advance task =>
    cases activity : s.activity? task with
    | none => simp [notifiedBy, leftBy, activity]
    | some a =>
      have goes : (s.advance task).activity? task = (s.turn task a).next.activity? := by
        rw [activity?_advance activity (roster.number_lt activity), if_pos rfl]
      have wrote := (compiler_advance activity).2
      cases tells : a.told? with
      | none =>
        have sweeps : (s.turn task a).next.activity? ≠ some .sweep := by
          intro sweeps
          have follows := follows_turn sweeps
          cases follows
          cases tells
        have silent := notified_turn_of_not_told s task tells
        simp [notifiedBy, leftBy, activity, tells, goes, sweeps, wrote, silent]
      | some told =>
        cases a with
        | tell context =>
          by_cases its : context = id
          · subst its
            cases found : s.registry.context? context with
            | none =>
              simp [notifiedBy, activity, goes, wrote, turn, tell, found, Next.activity?]
            | some c =>
              cases workspace : c.isWorkspace <;> cases listens : c.listener <;>
                simp [notifiedBy, leftBy, activity, goes, wrote, turn, tell, found, workspace,
                  listens, Context.isHeard, Activity.background?, Activity.told?, Next.activity?]
          · simp [notifiedBy, leftBy, activity, Activity.background?, Activity.told?, its]
        | _ => cases tells
  | _ => simp [notifiedBy, leftBy]

/-! ## Whole runs -/

theorem filter_history {α : Type} (entry : State → Event → List α) (keep : α → Bool) (s : State)
    (es : List Event) :
    (s.history entry es).filter keep = s.history (fun s e => (entry s e).filter keep) es := by
  induction es generalizing s with
  | nil => rfl
  | cons e es inductionHypothesis =>
    rw [history, List.filter_append, inductionHypothesis, history]

theorem length_history_congr {α β : Type} {entry : State → Event → List α}
    {other : State → Event → List β} (same : ∀ s e, (entry s e).length = (other s e).length)
    (s : State) (es : List Event) : (s.history entry es).length = (s.history other es).length := by
  induction es generalizing s with
  | nil => rfl
  | cons e es inductionHypothesis =>
    rw [history, List.length_append, inductionHypothesis, same, history, List.length_append]

theorem length_attempts (s : State) (id : ContextId) (es : List Event) :
    ((s.history attemptedBy es).filter (fun attempt => attempt.1 == id)).length =
      (s.history (leftBy Activity.launched? id) es).length := by
  rw [filter_history]
  refine length_history_congr (fun s e => ?_) s es
  cases e with
  | advance task =>
    cases activity : s.activity? task with
    | none => simp [attemptedBy, leftBy, activity]
    | some a =>
      cases a with
      | launch asked invocation =>
        by_cases its : asked = id <;> simp [attemptedBy, leftBy, activity, Activity.launched?, its]
      | _ => simp [attemptedBy, leftBy, activity, Activity.launched?]
  | _ => rfl

theorem length_published (s : State) (id : ContextId) (es : List Event) :
    (s.history (publishedBy id) es).length =
      (s.history (leftBy Activity.collected? id) es).length := by
  refine length_history_congr (fun s e => ?_) s es
  obtain ⟨task, reply, rfl, activity, published⟩ | ⟨nothing, other⟩ := publishedBy_cases id s e
  · simp [published, leftBy, activity, Activity.collected?]
  · have quiet : leftBy Activity.collected? id s e = [] := by
      refine List.eq_nil_iff_forall_not_mem.mpr fun task collects => ?_
      obtain ⟨rfl, a, activity, there⟩ := mem_leftBy.mp collects
      cases a with
      | collect collected reply =>
        cases there
        exact other reply s.now (contextChange?_of_touches (.collect activity))
      | _ => cases there
    rw [nothing, quiet]
    rfl

theorem attempts_afterAll {r : Replay} (replays : s.compiler = .replay r) (es : List Event) :
    ∃ later, (s.afterAll es).compiler = .replay later ∧
      later.invocations = r.invocations ++ (s.history attemptedBy es).map (·.2) := by
  induction es generalizing s r with
  | nil => exact ⟨r, replays, by simp [history]⟩
  | cons e es inductionHypothesis =>
    obtain ⟨middle, found, remembered⟩ := attempts_after replays e
    obtain ⟨later, foundLater, rememberedLater⟩ := inductionHypothesis found
    refine ⟨later, foundLater, ?_⟩
    rw [rememberedLater, remembered, history, List.map_append, List.append_assoc]

/-- A context that somebody listens to has told this with every section that was to do so, and any
other with none. -/
theorem Initial.history_notifiedBy (initial : s.Initial) (possible : s.Possible es)
    (id : ContextId) :
    s.history (notifiedBy id) es =
      if ((s.afterAll es).registry.context? id).any Context.isHeard = true then
        s.history (leftBy Activity.told? id) es else [] := by
  induction es using List.reverseRecOn with
  | nil => split <;> rfl
  | append_singleton es e inductionHypothesis =>
    obtain ⟨before, allowed, -⟩ := possible_append.mp possible
    have earlier := inductionHypothesis before
    have now := notifiedBy_eq (initial.roster.afterAll es) id e
    simp only [history_append, history, List.append_nil, afterAll_append, afterAll_cons,
      afterAll_nil]
    cases old : (s.afterAll es).registry.context? id with
    | some c =>
      have same : (((s.afterAll es).after e).registry.context? id).any Context.isHeard =
          c.isHeard := by
        rw [context?_after old e]
        cases (s.afterAll es).contextChange? e id with
        | none => rfl
        | some change => exact c.isHeard_apply change
      rw [old, Option.any_some] at earlier now
      rw [same, earlier, now]
      split <;> rfl
    | none =>
      have passage := initial.tells before id
      have nobody : s.history (leftBy Activity.collected? id) es = [] := by
        rw [← List.length_eq_zero_iff, ← length_published,
          (shows_afterAll initial before id).2 old, List.length_nil]
      rw [nobody] at passage
      have untold : s.history (leftBy Activity.told? id) es = [] :=
        List.subset_nil.mp passage.within
      have quiet : leftBy Activity.told? id (s.afterAll es) e = [] :=
        List.eq_nil_iff_forall_not_mem.mpr fun task tells =>
          List.not_mem_nil ((passage.present task).mp (mem_leftBy.mp tells).2).1
      rw [old, Option.any_none, if_neg Bool.false_ne_true] at earlier now
      rw [earlier, now, untold, quiet]
      split <;> rfl

theorem Initial.completedRuns_eq (initial : s.Initial) (possible : s.Possible es) {c : Context}
    (found : (s.afterAll es).registry.context? id = some c) :
    c.completedRuns = (s.history (leftBy Activity.collected? id) es).length := by
  rw [← length_published]
  exact ((shows_afterAll initial possible id).1 c found).completedRuns

/-- All that has begun was handed over or is to be, and it has ended or runs. -/
theorem Initial.attempts_balance (initial : s.Initial) (possible : s.Possible es) {c : Context}
    (found : (s.afterAll es).registry.context? id = some c) :
    ((s.history attemptedBy es).filter (fun attempt => attempt.1 == id)).length +
        ((s.afterAll es).tasksAt Activity.launched? id).length =
      c.completedRuns + (s.history (leftBy Activity.refused? id) es).length + c.progress := by
  have roster := initial.roster.afterAll es
  have handed := (initial.launches possible id).length roster
  have begun := ((initial.accounted id possible).passage roster).length roster
  have ended := (perm_history (endedBy_eq id) s es).length_eq
  have running := (initial.steady.afterAll initial.roster possible).progress_eq_length found
  rw [List.length_append, ← initial.completedRuns_eq possible found] at ended
  calc ((s.history attemptedBy es).filter (fun attempt => attempt.1 == id)).length +
        ((s.afterAll es).tasksAt Activity.launched? id).length
      = (s.history (leftBy Activity.launched? id) es).length +
          ((s.afterAll es).tasksAt Activity.launched? id).length :=
        congrArg (· + _) (length_attempts s id es)
    _ = (s.history (begunBy id) es).length := handed
    _ = (s.history (endedBy id) es).length + ((s.afterAll es).invocations id).length := begun.symm
    _ = c.completedRuns + (s.history (leftBy Activity.refused? id) es).length + c.progress := by
      rw [ended, running]

theorem Initial.published_of_notifiedBy (initial : s.Initial) (possible : s.Possible es)
    {e : Event} (notifies : task ∈ notifiedBy id (s.afterAll es) e) :
    task ∈ s.history (leftBy Activity.collected? id) es := by
  rw [notifiedBy_eq (initial.roster.afterAll es)] at notifies
  split at notifies
  next =>
    have there := (mem_leftBy.mp notifies).2
    exact (((initial.tells possible id).present task).mp there).1
  next => cases notifies

/-- Who gives up carries an invocation that the compiler has refused. -/
theorem Initial.refused_of_leftBy (initial : s.Initial) (possible : s.Possible es) {e : Event}
    (givesUp : task ∈ leftBy Activity.refused? id (s.afterAll es) e) :
    s.Refused id es task := by
  obtain ⟨-, a, activity, there⟩ := mem_leftBy.mp givesUp
  cases a with
  | giveUp refused =>
    cases there
    obtain ⟨first, start, during, _, underway, stage⟩ :=
      exists_stage initial possible activity rfl
    obtain ⟨-, launches⟩ | ⟨reply, -, collects⟩ | ⟨fault, answers, -⟩ := stage
    · simp [activity] at launches
    · simp [activity] at collects
    · exact ⟨first, start, during, fault, underway, answers⟩
  | _ => cases there

/-- After every run the attempts of a context and the invocations that are still to be handed over
are as many as its publications, its refused invocations and the one that runs; a replaying compiler
remembers these very attempts.  If a workspace has a listener, it has been told once for every
publication, or a task is there that is to tell it.  A task that tells it has published before, one
whose invocation the compiler refused never does, and nor does a script. -/
theorem attempts_and_notifications_balance (initial : s.Initial) (possible : s.Possible es)
    {c : Context} (found : (s.afterAll es).registry.context? id = some c) :
    let u := s.afterAll es
    let attempted := (s.history attemptedBy es).filter (fun attempt => attempt.1 == id)
    let refused := s.history (leftBy Activity.refused? id) es
    let told := s.history (notifiedBy id) es
    attempted.length + (u.tasksAt Activity.launched? id).length =
        c.completedRuns + refused.length + c.progress ∧
      (∀ r, s.compiler = .replay r → ∃ later, u.compiler = .replay later ∧
        later.invocations = r.invocations ++ (s.history attemptedBy es).map (·.2)) ∧
      (c.isWorkspace = true → c.listener ≠ .nobody →
        told.length + (u.tasksAt Activity.told? id).length = c.completedRuns) ∧
      told.Nodup ∧
      (∀ ran e since, es = ran ++ e :: since →
        (∀ task ∈ notifiedBy id (s.afterAll ran) e,
          task ∈ s.history (leftBy Activity.collected? id) ran) ∧
        ∀ task ∈ leftBy Activity.refused? id (s.afterAll ran) e, s.Refused id ran task) ∧
      (∀ task ∈ refused, task ∉ told ∧ task ∉ u.tasksAt Activity.told? id) ∧
      (c.isWorkspace = false → told = []) := by
  intro u attempted refused told
  have roster := initial.roster.afterAll es
  have tells := initial.tells possible id
  have heard : told = if c.isHeard = true then s.history (leftBy Activity.told? id) es else [] := by
    have told := initial.history_notifiedBy possible id
    rwa [found, Option.any_some] at told
  have toldWithin : told ⊆ s.history (leftBy Activity.collected? id) es := by
    intro task tellsIt
    rw [heard] at tellsIt
    split at tellsIt
    · exact tells.within tellsIt
    · cases tellsIt
  refine ⟨initial.attempts_balance possible found,
    fun r replays => attempts_afterAll replays es, ?_, ?_, ?_, ?_, ?_⟩
  · intro workspace listens
    have isHeard : c.isHeard = true := by simp [Context.isHeard, workspace, listens]
    rw [heard, if_pos isHeard, initial.completedRuns_eq possible found]
    exact tells.length roster
  · rw [heard]
    split
    · exact tells.leftOnce
    · exact List.nodup_nil
  · rintro ran e since rfl
    have ranPossible := (possible_append.mp possible).1
    exact ⟨fun task notifies => initial.published_of_notifiedBy ranPossible notifies,
      fun task givesUp => initial.refused_of_leftBy ranPossible givesUp⟩
  · -- No task ends an invocation twice, so one that gives up never publishes.
    intro task refuses
    have other : task ∉ s.history (leftBy Activity.collected? id) es := fun publishes =>
      (List.nodup_append.mp (initial.nodup_ended possible id)).2.2 task publishes task refuses rfl
    refine ⟨fun tellsIt => other (toldWithin tellsIt), fun pending => other ?_⟩
    exact ((tells.present task).mp ((mem_tasksAt roster).mp pending)).1
  · intro script
    have silent : c.isHeard = false := by simp [Context.isHeard, script]
    rw [heard, silent, if_neg Bool.false_ne_true]

/-- The context of a workspace whose publications somebody writes down. -/
def heardWorkspace : State := { registry := { store := [.workspace ⟨"/w"⟩ {} .recorder] } }

/-- One invocation publishes and tells of it; the next one is refused; the third has published and
is to tell of it while a fourth is to be handed over. -/
def brokenRun : List Event :=
  let moves (task : TaskId) (n : Nat) : List Event := .replicate n (.advance task)
  [.assign 0 "a.pwn" true, .run 0, .run 0] ++ moves 0 3 ++
    [.instruct (.refuse "busy"), .run 0] ++ moves 1 2 ++
    [.instruct .accept, .run 0] ++ moves 2 2 ++ [.run 0]

theorem attempts_and_notifications_balance_brokenRun :
    let u := heardWorkspace.afterAll brokenRun
    heardWorkspace.Initial ∧ heardWorkspace.Possible brokenRun ∧
      ∃ c, u.registry.context? 0 = some c ∧ c.isWorkspace = true ∧ c.listener ≠ .nobody ∧
        c.completedRuns = 2 ∧ c.progress = 1 ∧ u.tasksAt Activity.launched? 0 = [3] ∧
        heardWorkspace.history (leftBy Activity.refused? 0) brokenRun = [1] ∧
        (heardWorkspace.history attemptedBy brokenRun).length = 3 ∧
        u.tasksAt Activity.told? 0 = [2] ∧
        (heardWorkspace.history (notifiedBy 0) brokenRun).length = 1 ∧
        1 ∉ heardWorkspace.history (notifiedBy 0) brokenRun := by
  intro u
  have initial : heardWorkspace.Initial := ⟨rfl, rfl, rfl, rfl, rfl, rfl, by decide⟩
  have possible : heardWorkspace.Possible brokenRun := by decide +kernel
  obtain ⟨c, found⟩ : ∃ c, u.registry.context? 0 = some c :=
    Option.isSome_iff_exists.mp (by decide +kernel)
  have shown : (u.registry.context? 0).map
      (fun c => (c.isWorkspace, c.listener, c.completedRuns, c.progress)) =
        some (true, .recorder, 2, 1) := by
    decide +kernel
  rw [found, Option.map_some, Option.some.injEq, Prod.mk.injEq, Prod.mk.injEq, Prod.mk.injEq]
    at shown
  obtain ⟨workspace, listener, completedRuns, progress⟩ := shown
  have awaiting : u.tasksAt Activity.launched? 0 = [3] := by decide +kernel
  have refused : heardWorkspace.history (leftBy Activity.refused? 0) brokenRun = [1] := by
    decide +kernel
  have pending : u.tasksAt Activity.told? 0 = [2] := by decide +kernel
  have only : (heardWorkspace.history attemptedBy brokenRun).filter
      (fun attempt => attempt.1 == 0) = heardWorkspace.history attemptedBy brokenRun := by
    decide +kernel
  obtain ⟨attempts, -, told, -, -, never, -⟩ :=
    attempts_and_notifications_balance initial possible found
  have listens : c.listener ≠ .nobody := by rw [listener]; decide
  have told := told workspace listens
  rw [awaiting, refused, completedRuns, progress, only] at attempts
  rw [pending, completedRuns] at told
  rw [refused] at never
  exact ⟨initial, possible, c, found, workspace, listens, completedRuns, progress, awaiting,
    refused, Nat.add_right_cancel attempts, pending, Nat.add_right_cancel told,
    (never 1 (List.mem_singleton_self 1)).1⟩

end State

end Engine

end PawnQuery
