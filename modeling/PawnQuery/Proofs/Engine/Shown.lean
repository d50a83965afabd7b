import PawnQuery.Proofs.Engine.Publication

/-!
# What a context shows

A context shows the results of one invocation: the last one that published what it found.  Both
tables are from that invocation, unless a main file has been set anew since, which takes the symbols
away.  An invocation that the compiler refuses leaves all of this as it is.
-/

namespace PawnQuery.Engine.State

open PawnQuery.Compiler (Backend Invocation Reply SpawnFault)

variable {s : State} {id : ContextId} {es : List Event}

/-- An invocation of a context is under way, and the compiler has answered it with this reply. -/
def Answered (s : State) (id : ContextId) (es : List Event) (carrier : TaskId) (reply : Reply) :
    Prop :=
  ∃ first start during, s.Underway id es first start during carrier ∧
    ((s.afterAll first).after start).history (answeredBy carrier) during = [.ok reply]

/-- The last invocation of a context to publish what it found: the compiler had answered it with
`reply`, and `held` was its context until then. -/
structure LastPublication (s : State) (id : ContextId) (es ran : List Event) (carrier : TaskId)
    (since : List Event) (reply : Reply) (held : Context) : Prop where
  last : LastEntry (publishedBy id) s es ran (.advance carrier) since
  answered : s.Answered id ran carrier reply
  found : (s.afterAll ran).registry.context? id = some held

/-- What a context shows after a list of events: nothing, or what one invocation found. -/
inductive Shows (s : State) (id : ContextId) (es : List Event) : Context.Results → Prop where
  | nothing (never : s.history (publishedBy id) es = []) : Shows s id es {}
  | last {ran since : List Event} {carrier : TaskId} {reply : Reply} {held : Context}
      (publication : s.LastPublication id es ran carrier since reply held) :
      Shows s id es
        { symbols :=
            if ((s.afterAll ran).after (.advance carrier)).Always
                (fun s e => clears id s e = false) since then
              (held.collect reply.output).symbols
            else {}
          diagnostics := (held.collect reply.output).diagnostics
          completedRuns := (s.history (publishedBy id) es).length
          lastCompleted := some (s.afterAll ran).now }

/-! ## Whole runs -/

theorem Shows.completedRuns {shown : Context.Results} (shows : s.Shows id es shown) :
    shown.completedRuns = (s.history (publishedBy id) es).length := by
  cases shows with
  | nothing never => rw [never]; rfl
  | last publication => rfl

theorem LastPublication.append_right {ran since later : List Event} {carrier : TaskId}
    {reply : Reply} {held : Context}
    (publication : s.LastPublication id es ran carrier since reply held)
    (nothing : (s.afterAll es).history (publishedBy id) later = []) :
    s.LastPublication id (es ++ later) ran carrier (since ++ later) reply held :=
  ⟨publication.last.append_right nothing, publication.answered, publication.found⟩

theorem LastPublication.afterAll {ran since : List Event} {carrier : TaskId} {reply : Reply}
    {held : Context} (publication : s.LastPublication id es ran carrier since reply held) :
    s.afterAll es = ((s.afterAll ran).after (.advance carrier)).afterAll since := by
  rw [publication.last.split, afterAll_append, afterAll_cons]

/-- An event that publishes nothing clears the symbols or changes nothing of what is shown. -/
theorem Shows.append_quiet {shown : Context.Results} (shows : s.Shows id es shown) {e : Event}
    (quiet : publishedBy id (s.afterAll es) e = []) :
    s.Shows id (es ++ [e]) (if clears id (s.afterAll es) e = true then shown.clear else shown) := by
  have nothing : (s.afterAll es).history (publishedBy id) [e] = [] := by simp [history, quiet]
  cases shows with
  | nothing never =>
    have still : s.history (publishedBy id) (es ++ [e]) = [] := by
      rw [history_append, never, nothing, List.nil_append]
    simpa [Context.Results.clear] using Shows.nothing still
  | last publication =>
    have later := Shows.last (publication.append_right nothing)
    by_cases clearsNow : clears id (s.afterAll es) e = true
    · simpa [nothing, ← publication.afterAll, clearsNow, Context.Results.clear] using later
    · simpa [nothing, ← publication.afterAll, clearsNow] using later

theorem context?_ne_none_of_carries (steady : s.Steady) (roster : s.Roster) {task : TaskId}
    {a : Activity} (activity : s.activity? task = some a) (carries : a.invocation? = some id) :
    s.registry.context? id ≠ none := by
  intro missing
  have member : task ∈ s.invocations id := (mem_invocations roster).mpr ⟨a, activity, carries⟩
  rw [steady.owned id missing] at member
  cases member

theorem exists_stage (initial : s.Initial) (possible : s.Possible es) {task : TaskId} {a : Activity}
    (activity : (s.afterAll es).activity? task = some a) (carries : a.invocation? = some id) :
    ∃ first start during invocation, s.Underway id es first start during task ∧
      (s.afterAll es).Stage id task invocation
        (((s.afterAll first).after start).history (answeredBy task) during) := by
  have member : task ∈ (s.afterAll es).invocations id :=
    (mem_invocations (initial.roster.afterAll es)).mpr ⟨a, activity, carries⟩
  obtain ⟨first, start, during, carrier, underway⟩ :=
    exists_underway initial possible (List.ne_nil_of_mem member)
  rw [underway.running initial possible, List.mem_singleton] at member
  subst member
  obtain ⟨_, invocation, -, holds⟩ := underway.holds initial possible
  refine ⟨first, start, during, invocation, underway, ?_⟩
  rw [underway.afterAll]
  exact holds.stage

/-- What a task collects is the compiler's answer to the invocation that the task carries. -/
theorem collects_iff_answered (initial : s.Initial) (possible : s.Possible es) {task : TaskId}
    {reply : Reply} :
    (s.afterAll es).activity? task = some (.collect id reply) ↔ s.Answered id es task reply := by
  constructor
  · intro activity
    obtain ⟨first, start, during, _, underway, stage⟩ :=
      exists_stage initial possible activity rfl
    refine ⟨first, start, during, underway, ?_⟩
    obtain ⟨-, launches⟩ | ⟨answer, answers, collects⟩ | ⟨fault, -, givesUp⟩ := stage
    · simp [activity] at launches
    · rw [activity] at collects
      cases collects
      exact answers
    · simp [activity] at givesUp
  · rintro ⟨first, start, during, underway, answers⟩
    obtain ⟨_, _, -, holds⟩ := underway.holds initial possible
    rw [underway.afterAll]
    obtain ⟨waits, -⟩ | ⟨answer, same, collects⟩ | ⟨fault, refused, -⟩ := holds.stage
    · simp [answers] at waits
    · rw [answers] at same
      cases same
      exact collects
    · simp [answers] at refused

theorem lastPublication_of_collect (initial : s.Initial) (possible : s.Possible es) {task : TaskId}
    {reply : Reply} (activity : (s.afterAll es).activity? task = some (.collect id reply))
    {c : Context} (found : (s.afterAll es).registry.context? id = some c) :
    s.LastPublication id (es ++ [.advance task]) es task [] reply c := by
  have adds : publishedBy id (s.afterAll es) (.advance task) ≠ [] := by
    rw [publishedBy_of_collect activity]
    exact List.cons_ne_nil _ _
  exact ⟨⟨rfl, adds, rfl⟩, (collects_iff_answered initial possible).mp activity, found⟩

/-- After every run a context shows what it is to show, and one that does not exist has nothing to
show. -/
theorem shows_afterAll (initial : s.Initial) (possible : s.Possible es) (id : ContextId) :
    (∀ c, (s.afterAll es).registry.context? id = some c → s.Shows id es c.results) ∧
      ((s.afterAll es).registry.context? id = none → s.history (publishedBy id) es = []) := by
  -- By induction from the back: the last event publishes, or it leaves the last publication.
  induction es using List.reverseRecOn with
  | nil =>
    refine ⟨fun c found => ?_, fun _ => rfl⟩
    rw [(initial.fresh c (List.mem_of_getElem? found)).results]
    exact .nothing rfl
  | append_singleton es e inductionHypothesis =>
    obtain ⟨before, allowed, -⟩ := possible_append.mp possible
    obtain ⟨shows, missing⟩ := inductionHypothesis before
    have roster := initial.roster.afterAll es
    have steady := initial.steady.afterAll initial.roster before
    rw [afterAll_append, afterAll_cons, afterAll_nil]
    cases old : (s.afterAll es).registry.context? id with
    | none =>
      have nothing : s.history (publishedBy id) (es ++ [e]) = [] := by
        obtain ⟨task, reply, rfl, activity, -⟩ | ⟨nothing, -⟩ :=
          publishedBy_cases id (s.afterAll es) e
        · exact absurd old (context?_ne_none_of_carries steady roster activity rfl)
        · simp [missing old, history, nothing]
      refine ⟨fun c found => ?_, fun _ => nothing⟩
      rw [(isFresh_of_context?_after old e found).results]
      exact .nothing nothing
    | some c =>
      obtain ⟨later, found, changed⟩ := results_after old e
      refine ⟨fun other foundOther => ?_, fun gone => by rw [found] at gone; cases gone⟩
      rw [found] at foundOther
      cases foundOther
      obtain ⟨task, reply, rfl, activity, published, results⟩ | ⟨quiet, results⟩ := changed
      · have latest := Shows.last (lastPublication_of_collect initial before activity old)
        have counted := (shows c old).completedRuns
        rw [results]
        simpa [Context.Results.publish, history, published, counted] using latest
      · rw [results]
        exact (shows c old).append_quiet quiet

/-! ## Refused invocations -/

theorem after_launch_refused {task : TaskId} {invocation : Invocation}
    (activity : s.activity? task = some (.launch id invocation)) {compiler : Backend}
    {fault : SpawnFault}
    (refused : s.compiler.spawn s.files invocation = (compiler, .error fault)) :
    s.after (.advance task) = ({ s with compiler := compiler }).setActivity task (.giveUp id) := by
  rw [after, advance_eq activity]
  simp only [turn, launch, refused]
  rfl

theorem after_giveUp (roster : s.Roster) (steady : s.Steady) (orderly : s.Orderly) {task : TaskId}
    (activity : s.activity? task = some (.giveUp id)) {c : Context}
    (found : s.registry.context? id = some c) :
    s.after (.advance task) =
      { s with
        registry := s.registry.setContext id { c with progress := 0, waiters := [] }
        tasks := s.tasks.filter (fun t => t.1 != task)
        queue := s.queue.erase task ++ c.waiters.filter s.hasTask
        answers := s.answers ++ [(task, .done)] } := by
  have carries : task ∈ s.invocations id := (mem_invocations roster).mpr ⟨_, activity, rfl⟩
  have counted : c.progress = 1 := by
    obtain ⟨-, -, nobody⟩ | ⟨counted, -⟩ := steady.paced id c found
    · rw [nobody] at carries
      cases carries
    · exact counted
  have present : c.waiters.filter (s.dropTask task).hasTask = c.waiters.filter s.hasTask := by
    refine List.filter_congr fun other waits => ?_
    rw [← waitersOf_of_found found] at waits
    have differs : task ≠ other := by
      rintro rfl
      cases orderly.plain id task waits _ activity
    rw [hasTask_eq, activity?_dropTask, if_neg differs, ← hasTask_eq]
  rw [after, advance_eq activity]
  simp only [turn, publish, found, Context.finish, Option.map_none, List.foldl_nil, follow, counted,
    foldl_wake]
  rw [← present]
  rfl

theorem setMainFile_of_standalone {c : Context} (found : s.registry.context? id = some c)
    (standalone : c.isWorkspace = false) (file : String) (reparse : Bool) :
    s.setMainFile id file reparse = s ∧ s.after (.assign id file reparse) = s := by
  have kept : s.assignMainFile id file reparse = s := by
    simp [assignMainFile, found, Context.setMainFile, standalone, Registry.setContext_self found]
  simp [setMainFile, found, standalone, kept, after]

/-! ## What is shown -/

/-- After every run a context shows what its last publication found, or nothing if there has been
none; only setting the main file of a workspace anew takes away the symbols.  A refused invocation
is counted off and releases those who wait for it, and changes nothing else; neither does setting
the main file of a script. -/
theorem context_shows_last_publication (initial : s.Initial) (possible : s.Possible es)
    {c : Context} (found : (s.afterAll es).registry.context? id = some c) :
    let u := s.afterAll es
    s.Shows id es c.results ∧
      (∀ task invocation compiler fault, u.activity? task = some (.launch id invocation) →
        u.compiler.spawn u.files invocation = (compiler, .error fault) →
          u.after (.advance task) =
            ({ u with compiler := compiler }).setActivity task (.giveUp id)) ∧
      (∀ task, u.activity? task = some (.giveUp id) →
        u.after (.advance task) =
          { u with
            registry := u.registry.setContext id { c with progress := 0, waiters := [] }
            tasks := u.tasks.filter (fun t => t.1 != task)
            queue := u.queue.erase task ++ c.waiters.filter u.hasTask
            answers := u.answers ++ [(task, .done)] }) ∧
      (c.isWorkspace = false → ∀ file reparse,
        u.setMainFile id file reparse = u ∧ u.after (.assign id file reparse) = u) := by
  intro u
  refine ⟨(shows_afterAll initial possible id).1 c found, ?_, ?_, ?_⟩
  · intro task invocation compiler fault activity refused
    exact after_launch_refused activity refused
  · exact fun task activity => after_giveUp (initial.roster.afterAll es)
      (initial.steady.afterAll initial.roster possible)
      (initial.orderly.afterAll initial.roster possible) activity found
  · exact fun standalone => setMainFile_of_standalone found standalone

/-- An invocation for `a.pwn` publishes; when the main file becomes `b.pwn` the next one is refused,
and somebody waits for it. -/
def refusedRun : List Event :=
  let report :=
    "\x7b\"kind\":\"functions\",\"payload\":[\x7b\"name\":\"old\"\x7d]\x7d\n" ++
      "\x7b\"kind\":\"diagnostic\",\"payload\":\x7b\"message\":\"odd\"\x7d\x7d"
  [.instruct (.record ⟨"/w/a.pwn"⟩ (.ofTexts report "")), .assign 0 "a.pwn" true, .run 0,
    .advance 0, .advance 0, .advance 0, .instruct (.refuse "busy"), .assign 0 "b.pwn" true, .run 0,
    .perform (.wait 0), .advance 2, .advance 1]

/-- The refusal leaves the diagnostics of `a.pwn`, and brings back whoever waits. -/
theorem context_shows_last_publication_refusedRun :
    let u := soleWorkspace.afterAll refusedRun
    soleWorkspace.Initial ∧ soleWorkspace.Possible refusedRun ∧
      ∃ c, u.registry.context? 0 = some c ∧ soleWorkspace.Shows 0 refusedRun c.results ∧
        c.symbols = {} ∧ c.diagnostics.length = 1 ∧ c.completedRuns = 1 ∧
        (u.after (.advance 1)).queue = [2] ∧
        ∃ later, (u.after (.advance 1)).registry.context? 0 = some later ∧ later.progress = 0 ∧
          later.results = c.results := by
  intro u
  have possible : soleWorkspace.Possible refusedRun := by decide +kernel
  obtain ⟨c, found⟩ : ∃ c, u.registry.context? 0 = some c :=
    Option.isSome_iff_exists.mp (by decide +kernel)
  have shown : (u.registry.context? 0).map
      (fun c => (c.symbols, c.diagnostics.length, c.completedRuns)) = some ({}, 1, 1) := by
    decide +kernel
  rw [found, Option.map_some, Option.some.injEq, Prod.mk.injEq, Prod.mk.injEq] at shown
  obtain ⟨symbols, diagnostics, completedRuns⟩ := shown
  obtain ⟨shows, -, ends, -⟩ := context_shows_last_publication initial_soleWorkspace possible found
  have after := ends 1 (by decide +kernel)
  refine ⟨initial_soleWorkspace, possible, c, found, shows, symbols, diagnostics, completedRuns,
    by decide +kernel, { c with progress := 0, waiters := [] }, ?_, rfl, rfl⟩
  rw [after]
  exact (Registry.context?_setContext found _ 0).trans (if_pos rfl)

end PawnQuery.Engine.State
