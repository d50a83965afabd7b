import PawnQuery.Proofs.Engine.Waiting

/-!
# Whose symbols are published

A context at rest shows what its last invocation found.  Setting a main file anew takes the symbols
away and asks for an invocation; the request is dropped if one runs already, and that one is for the
main file that was set when it began.  So the symbols that are published in the end are those of the
new main file exactly if an invocation has begun since it was set, or if the one that was under way
then had the same file to compile.
-/

namespace PawnQuery.Engine.State

open PawnQuery.Compiler (SpawnFault Reply)

/-! ## The last entry of a record -/

/-- The last of some events that adds to a record, with what comes before it and since. -/
structure LastEntry {α : Type} (entry : State → Event → List α) (s : State) (es before : List Event)
    (e : Event) (since : List Event) : Prop where
  split : es = before ++ e :: since
  adds : entry (s.afterAll before) e ≠ []
  nothingSince : ((s.afterAll before).after e).history entry since = []

section LastEntry

variable {α : Type} {entry : State → Event → List α} {s : State} {es before since : List Event}
  {e : Event}

theorem exists_lastEntry (adds : s.history entry es ≠ []) :
    ∃ before e since, LastEntry entry s es before e since := by
  induction es using List.reverseRecOn with
  | nil => exact absurd rfl adds
  | append_singleton es e inductionHypothesis =>
    by_cases now : entry (s.afterAll es) e = []
    · have earlier : s.history entry es ≠ [] := by simpa [history, now] using adds
      obtain ⟨before, last, since, found⟩ := inductionHypothesis earlier
      refine ⟨before, last, since ++ [e], by simp [found.split], found.adds, ?_⟩
      rw [found.split, afterAll_append, afterAll_cons] at now
      simp [history, found.nothingSince, now]
    · exact ⟨es, e, [], rfl, now, rfl⟩

/-- There is one last entry only. -/
theorem LastEntry.unique {otherBefore otherSince : List Event} {other : Event}
    (last : LastEntry entry s es before e since)
    (otherLast : LastEntry entry s es otherBefore other otherSince) :
    before = otherBefore ∧ e = other ∧ since = otherSince := by
  have notEarlier : ∀ {before since middle : List Event} {e other : Event} {otherSince : List Event},
      ((s.afterAll before).after e).history entry since = [] → since = middle ++ other :: otherSince →
      entry (s.afterAll (before ++ e :: middle)) other = [] := by
    rintro before since middle e other otherSince nothing rfl
    rw [history_append, List.append_eq_nil_iff] at nothing
    rw [afterAll_append, afterAll_cons]
    exact (List.append_eq_nil_iff.mp nothing.2).1
  obtain ⟨middle, equal, rest⟩ | ⟨middle, equal, rest⟩ :=
    List.append_eq_append_iff.mp (last.split.symm.trans otherLast.split)
  · cases middle with
    | nil =>
      rw [List.append_nil] at equal
      exact ⟨equal.symm, List.cons.inj rest⟩
    | cons first middle =>
      obtain ⟨rfl, split⟩ := List.cons.inj rest
      refine absurd ?_ otherLast.adds
      rw [equal]
      exact notEarlier last.nothingSince split
  · cases middle with
    | nil =>
      rw [List.append_nil] at equal
      exact ⟨equal, (List.cons.inj rest).1.symm, (List.cons.inj rest).2.symm⟩
    | cons first middle =>
      obtain ⟨rfl, split⟩ := List.cons.inj rest
      refine absurd ?_ last.adds
      rw [equal]
      exact notEarlier otherLast.nothingSince split

theorem LastEntry.history_ne_nil (last : LastEntry entry s es before e since) :
    s.history entry es ≠ [] := by
  rw [last.split, history_append, history]
  simp [last.adds]

theorem LastEntry.append_left {es before since : List Event} {e : Event} (earlier : List Event)
    (last : LastEntry entry (s.afterAll earlier) es before e since) :
    LastEntry entry s (earlier ++ es) (earlier ++ before) e since := by
  refine ⟨by rw [last.split, List.append_assoc], ?_, ?_⟩ <;> rw [afterAll_append]
  · exact last.adds
  · exact last.nothingSince

theorem LastEntry.append_right {later : List Event} (last : LastEntry entry s es before e since)
    (nothing : (s.afterAll es).history entry later = []) :
    LastEntry entry s (es ++ later) before e (since ++ later) := by
  refine ⟨by rw [last.split]; simp, last.adds, ?_⟩
  rw [last.split, afterAll_append, afterAll_cons] at nothing
  rw [history_append, last.nothingSince, nothing, List.append_nil]

/-- What is last has been added after some event or before it. -/
theorem LastEntry.cases {later behind : List Event} {middle : Event}
    (last : LastEntry entry s (before ++ middle :: later) es e behind)
    (nothing : entry (s.afterAll before) middle = []) :
    (((s.afterAll before).after middle).history entry later ≠ [] ∧
        ∃ more rest, later = more ++ e :: rest ∧ es = before ++ middle :: more) ∨
      (((s.afterAll before).after middle).history entry later = [] ∧
        ∃ rest, LastEntry entry s before es e rest ∧ behind = rest ++ middle :: later) := by
  by_cases added : ((s.afterAll before).after middle).history entry later = []
  · have quiet : (s.afterAll before).history entry (middle :: later) = [] := by
      rw [history, nothing, added, List.nil_append]
    have earlier : s.history entry before ≠ [] := by
      have some := last.history_ne_nil
      rwa [history_append, quiet, List.append_nil] at some
    obtain ⟨_, _, rest, lastBefore⟩ := exists_lastEntry earlier
    obtain ⟨rfl, rfl, behind⟩ := last.unique (lastBefore.append_right quiet)
    exact .inr ⟨added, rest, lastBefore, behind⟩
  · obtain ⟨more, _, rest, lastLater⟩ := exists_lastEntry added
    have same : (s.afterAll before).after middle = s.afterAll (before ++ [middle]) := by simp
    rw [same] at lastLater
    have lastAll := lastLater.append_left (before ++ [middle])
    simp only [List.append_assoc, List.cons_append, List.nil_append] at lastAll
    obtain ⟨rfl, rfl, -⟩ := last.unique lastAll
    exact .inl ⟨added, more, rest, lastLater.split, rfl⟩

end LastEntry

/-! ## What is meant -/

def takesOn (s : State) : Activity → Bool
  | .launch _ invocation => (s.compiler.spawn s.files invocation).2.isOk
  | _ => true

/-- The event is no invocation that the compiler refuses. -/
def Accepts (s : State) : Event → Prop
  | .advance task => (s.activity? task).all s.takesOn = true
  | _ => True

instance (s : State) : (e : Event) → Decidable (s.Accepts e)
  | .advance task => inferInstanceAs (Decidable ((s.activity? task).all s.takesOn = true))
  | .perform _ | .run _ | .assign _ _ _ | .cancel _ | .instruct _ | .release _ | .surround _ _ =>
    .isTrue trivial

def renames (id : ContextId) (s : State) (e : Event) : Bool :=
  match s.contextChange? e id with
  | some (.setMainFile _ _) => true
  | _ => false

/-- The file that an invocation of a context would be to compile. -/
def targetOf (s : State) (id : ContextId) : Option Path :=
  (s.registry.context? id).bind Context.target?

/-- The last invocation of a context to end, from where it began to where it ended. -/
structure Concluded (s : State) (id : ContextId) (es ran first : List Event) (start : Event)
    (during : List Event) (carrier : TaskId) (since : List Event) : Prop where
  last : LastEntry (endedBy id) s es ran (.advance carrier) since
  underway : s.Underway id ran first start during carrier

/-- The published symbols of a context come from the report of its last invocation, which was to
compile this file. -/
def PublishedFor (s : State) (id : ContextId) (es : List Event) (target : Path) : Prop :=
  ∃ ran first start during carrier since, s.Concluded id es ran first start during carrier since ∧
    (s.afterAll first).targetOf id = some target ∧
    ∃ reply held c, ((s.afterAll first).after start).history (answeredBy carrier) during =
        [.ok reply] ∧ (s.afterAll ran).registry.context? id = some held ∧
      (s.afterAll es).registry.context? id = some c ∧
      c.symbols = (held.collect reply.output).symbols

/-! ## Invocations one after the other -/

theorem history_begunBy_of_running {s : State} (steady : s.Steady) (roster : s.Roster)
    {id : ContextId} {carrier : TaskId} (running : s.invocations id = [carrier]) {es : List Event}
    (possible : s.Possible es) (goesOn : s.history (endedBy id) es = []) :
    s.history (begunBy id) es = [] ∧ (s.afterAll es).invocations id = [carrier] := by
  induction es generalizing s with
  | nil => exact ⟨rfl, running⟩
  | cons e es inductionHypothesis =>
    obtain ⟨goesOnNow, goesOnLater⟩ := List.append_eq_nil_iff.mp goesOn
    have nothing := begunBy_of_running steady (by rw [running]; exact List.cons_ne_nil _ _) e
    obtain ⟨none, still⟩ := inductionHypothesis (steady.after roster possible.1) (roster.after e)
      (invocations_after_of_running steady roster possible.1 running goesOnNow) possible.2
      goesOnLater
    exact ⟨by rw [history, nothing, none]; rfl, still⟩

variable {s : State} {id : ContextId} {es before since : List Event}

theorem Underway.last (initial : s.Initial) (possible : s.Possible es) {start : Event}
    {during : List Event} {carrier : TaskId}
    (underway : s.Underway id es before start during carrier) :
    LastEntry (begunBy id) s es before start during := by
  refine ⟨underway.split, by rw [underway.begins]; exact List.cons_ne_nil _ _, ?_⟩
  rw [underway.split, possible_append, possible_cons] at possible
  obtain ⟨possibleBefore, allowed, possibleDuring⟩ := possible
  have roster := initial.roster.afterAll before
  have steady := initial.steady.afterAll initial.roster possibleBefore
  obtain ⟨_, _, -, atStart⟩ := holds_start roster steady allowed underway.begins
  exact (history_begunBy_of_running (steady.after roster allowed) (roster.after start)
    atStart.running possibleDuring underway.goesOn).1

theorem Underway.running (initial : s.Initial) (possible : s.Possible es) {start : Event}
    {during : List Event} {carrier : TaskId}
    (underway : s.Underway id es before start during carrier) :
    (s.afterAll es).invocations id = [carrier] := by
  obtain ⟨_, _, -, holds⟩ := underway.holds initial possible
  rw [underway.afterAll]
  exact holds.running

/-- An invocation that is under way was so at any time since it began. -/
theorem Underway.earlier {later since during : List Event} {start : Event} {carrier : TaskId}
    (underway : s.Underway id (es ++ later) before start during carrier)
    (split : es = before ++ start :: since) : s.Underway id es before start since carrier := by
  refine ⟨split, underway.begins, ?_⟩
  have goesOn := underway.goesOn
  have same := underway.split
  rw [split, List.append_assoc, List.append_cancel_left_eq, List.cons_append, List.cons.injEq]
    at same
  rw [← same.2, history_append, List.append_eq_nil_iff] at goesOn
  exact goesOn.1

/-- An invocation that runs has ended by the time its context is at rest again. -/
theorem exists_concluded (initial : s.Initial) {later : List Event}
    (possible : s.Possible (es ++ later)) (running : (s.afterAll es).invocations id ≠ [])
    (idle : (s.afterAll (es ++ later)).invocations id = []) :
    ∃ more first start during carrier since, later = more ++ .advance carrier :: since ∧
      s.Concluded id (es ++ later) (es ++ more) first start during carrier since := by
  obtain ⟨possibleBefore, possibleLater⟩ := possible_append.mp possible
  have roster := initial.roster.afterAll es
  have steady := initial.steady.afterAll initial.roster possibleBefore
  obtain ⟨task, alone⟩ := invocations_eq_singleton steady running
  have ended : (s.afterAll es).history (endedBy id) later ≠ [] := by
    intro goesOn
    have still := (history_begunBy_of_running steady roster alone possibleLater goesOn).2
    rw [← afterAll_append, idle] at still
    cases still
  obtain ⟨more, e, since, last⟩ := exists_lastEntry ended
  have ends : endedBy id (s.afterAll (es ++ more)) e ≠ [] := by
    rw [afterAll_append]
    exact last.adds
  obtain ⟨ending, member⟩ := List.exists_mem_of_ne_nil _ ends
  have carries := mem_invocations_of_mem_endedBy (initial.roster.afterAll (es ++ more)) member
  have possibleRan : s.Possible (es ++ more) := by
    rw [last.split, ← List.append_assoc] at possible
    exact (possible_append.mp possible).1
  obtain ⟨first, start, during, carrier, underway⟩ :=
    exists_underway initial possibleRan (List.ne_nil_of_mem carries)
  have moved : e = .advance carrier := eq_advance_of_endedBy
    (initial.roster.afterAll (es ++ more)) (underway.running initial possibleRan) ends
  subst moved
  exact ⟨more, first, start, during, carrier, since, last.split, last.append_left es, underway⟩

/-- When a context is at rest, its last invocation to end is the last that began. -/
theorem Concluded.lastBegun (initial : s.Initial) (possible : s.Possible es)
    (idle : (s.afterAll es).invocations id = []) {ran first during : List Event} {start : Event}
    {carrier : TaskId} (concluded : s.Concluded id es ran first start during carrier since) :
    LastEntry (begunBy id) s es first start (during ++ .advance carrier :: since) := by
  have possibleNow := possible
  rw [concluded.last.split, possible_append, possible_cons] at possible
  obtain ⟨possibleRan, allowed, possibleSince⟩ := possible
  have roster := initial.roster.afterAll ran
  have steady := initial.steady.afterAll initial.roster possibleRan
  have running := concluded.underway.running initial possibleRan
  have nothing : (s.afterAll ran).history (begunBy id) (.advance carrier :: since) = [] := by
    have now : begunBy id (s.afterAll ran) (.advance carrier) = [] :=
      begunBy_of_running steady (by rw [running]; exact List.cons_ne_nil _ _) _
    rw [history, now, List.nil_append]
    by_contra begun
    obtain ⟨between, begins, rest, last⟩ := exists_lastEntry begun
    have split : es = (ran ++ .advance carrier :: between) ++ begins :: rest := by
      rw [concluded.last.split, last.split]
      simp
    have goesOn := concluded.last.nothingSince
    rw [last.split, history_append, history, List.append_eq_nil_iff, List.append_eq_nil_iff]
      at goesOn
    have underway : s.Underway id es (ran ++ .advance carrier :: between) begins rest
        (s.afterAll (ran ++ .advance carrier :: between)).taskCount := by
      rw [afterAll_append, afterAll_cons]
      refine ⟨split, ?_, ?_⟩ <;> rw [afterAll_append, afterAll_cons]
      · obtain ⟨task, member⟩ := List.exists_mem_of_ne_nil _ last.adds
        have number := mem_begunBy member
        subst number
        unfold begunBy at member ⊢
        split at member
        next condition => exact if_pos condition
        next => cases member
      · exact goesOn.2.2
    have still := underway.running initial possibleNow
    rw [idle] at still
    cases still
  have last := (concluded.underway.last initial possibleRan).append_right nothing
  rwa [← concluded.last.split] at last

/-! ## What stays -/

theorem mainFile_afterAll {c : Context} (found : s.registry.context? id = some c)
    (kept : s.Always (fun s e => renames id s e = false) es) :
    ∃ later, (s.afterAll es).registry.context? id = some later ∧ later.mainFile = c.mainFile ∧
      later.root = c.root ∧ later.isWorkspace = c.isWorkspace := by
  induction es generalizing s c with
  | nil => exact ⟨c, found, rfl, rfl, rfl⟩
  | cons e es inductionHypothesis =>
    obtain ⟨later, foundLater, mainFile, root, workspace⟩ :=
      inductionHypothesis (context?_after found e) kept.2
    refine ⟨later, foundLater, mainFile.trans ?_, root.trans ?_, workspace.trans ?_⟩
    · have keeps : renames id s e = false := kept.1
      unfold renames at keeps
      cases made : s.contextChange? e id with
      | none => rfl
      | some change =>
        rw [made] at keeps
        cases change with
        | begin =>
          obtain equal | ⟨_, _, _, equal⟩ := c.begin_cases <;> simp [Context.apply, equal]
        | enqueue waiter =>
          obtain ⟨_, equal⟩ | ⟨_, equal⟩ := c.enqueue_cases waiter <;> simp [Context.apply, equal]
        | finish reply now => cases reply <;> rfl
        | setMainFile file reparse => cases keeps
    · cases s.contextChange? e id <;> simp
    · cases s.contextChange? e id <;> simp

theorem targetOf_afterAll {c : Context} (found : s.registry.context? id = some c)
    (kept : s.Always (fun s e => renames id s e = false) es) :
    (s.afterAll es).targetOf id = s.targetOf id := by
  obtain ⟨later, foundLater, mainFile, root, workspace⟩ := mainFile_afterAll found kept
  simp [targetOf, found, foundLater, Context.target?, Context.mainFile?, mainFile, root, workspace]

theorem clears_of_not_renames {e : Event} (kept : renames id s e = false) :
    clears id s e = false := by
  unfold renames at kept
  unfold clears
  split at kept
  · cases kept
  next other =>
    split
    next file made => exact absurd made (other file true)
    next => rfl

/-- While no invocation ends and no main file is set, the symbols stay what they are. -/
theorem symbols_afterAll {c : Context} (found : s.registry.context? id = some c)
    (kept : s.Always (fun s e => renames id s e = false) es)
    (goesOn : s.history (endedBy id) es = []) :
    ∃ later, (s.afterAll es).registry.context? id = some later ∧ later.symbols = c.symbols := by
  induction es generalizing s c with
  | nil => exact ⟨c, found, rfl⟩
  | cons e es inductionHypothesis =>
    obtain ⟨goesOnNow, goesOnLater⟩ := List.append_eq_nil_iff.mp goesOn
    obtain ⟨next, foundNext, -, symbols⟩ := tables_after found goesOnNow
    rw [if_neg (by rw [clears_of_not_renames kept.1]; exact Bool.false_ne_true)] at symbols
    obtain ⟨later, foundLater, same⟩ := inductionHypothesis foundNext kept.2 goesOnLater
    exact ⟨later, foundLater, same.trans symbols⟩

theorem ok_of_mem_answeredBy {e : Event} (accepts : s.Accepts e) {carrier : TaskId}
    {answer : Except SpawnFault Reply} (answers : answer ∈ answeredBy carrier s e) :
    ∃ reply, answer = .ok reply := by
  cases e with
  | advance task =>
    simp only [answeredBy] at answers
    split at answers
    next same =>
      subst same
      split at answers
      next id invocation activity =>
        simp only [Accepts, activity, Option.all_some, takesOn] at accepts
        rw [List.mem_singleton.mp answers]
        cases spawned : (s.compiler.spawn s.files invocation).2 with
        | ok reply => exact ⟨reply, rfl⟩
        | error fault => rw [spawned] at accepts; cases accepts
      next => cases answers
    next => cases answers
  | _ => cases answers

theorem ok_of_mem_history (accepts : s.Always Accepts es) {carrier : TaskId}
    {answer : Except SpawnFault Reply} (answers : answer ∈ s.history (answeredBy carrier) es) :
    ∃ reply, answer = .ok reply := by
  induction es generalizing s with
  | nil => cases answers
  | cons e es inductionHypothesis =>
    obtain now | later := List.mem_append.mp answers
    · exact ok_of_mem_answeredBy accepts.1 now
    · exact inductionHypothesis accepts.2 later

/-- Asking for an invocation that has something to compile leaves one running. -/
theorem running_of_asked (steady : s.Steady) (roster : s.Roster) {e : Event}
    (allowed : s.Allows e) (made : s.contextChange? e id = some .begin) {target : Path}
    (targets : s.targetOf id = some target) : (s.after e).invocations id ≠ [] := by
  obtain ⟨c, found, targets⟩ := Option.bind_eq_some_iff.mp targets
  have goesOn : endedBy id s e = [] := by
    obtain ⟨_, _, -, same, -⟩ | ⟨-, goesOn⟩ := endedBy_of_touches (touches_of_contextChange? made)
    · cases same
    · exact goesOn
  rw [invocations_after roster allowed id, goesOn]
  by_cases idle : c.progress = 0
  · have begins : begunBy id s e = [s.taskCount] :=
      if_pos ⟨made, by simp [found, Context.begin, Context.inProgress, idle, targets]⟩
    simp [begins]
  · obtain ⟨-, task, running⟩ := steady.progress_eq_one found idle
    simp [running]

/-! ## The main file that was set last -/

theorem Concluded.publishedFor_iff (initial : s.Initial) (possible : s.Possible es)
    (accepts : s.Always Accepts es) {ran first during : List Event} {start : Event}
    {carrier : TaskId} (concluded : s.Concluded id es ran first start during carrier since)
    (kept : ((s.afterAll ran).after (.advance carrier)).Always
      (fun s e => renames id s e = false) since) (target : Path) :
    s.PublishedFor id es target ↔ (s.afterAll first).targetOf id = some target := by
  constructor
  · rintro ⟨_, _, _, _, _, _, other, targets, -⟩
    obtain ⟨rfl, -, -⟩ := concluded.last.unique other.last
    rw [concluded.last.split, possible_append] at possible
    obtain ⟨rfl, -, -⟩ :=
      (concluded.underway.last initial possible.1).unique (other.underway.last initial possible.1)
    exact targets
  · intro targets
    refine ⟨ran, first, start, during, carrier, since, concluded, targets, ?_⟩
    rw [concluded.last.split] at possible accepts
    obtain ⟨possibleRan, -, -⟩ := possible_append.mp possible
    obtain ⟨acceptsRan, -⟩ := always_append.mp accepts
    obtain ⟨_, _, -, holds⟩ := concluded.underway.holds initial possibleRan
    obtain ⟨held, foundHeld, -, -⟩ := holds.tables
    have ends := concluded.last.adds
    rw [← concluded.underway.afterAll] at foundHeld
    rw [concluded.underway.afterAll] at ends
    obtain ⟨released, foundReleased, -, -, published⟩ := holds.publishes
      (by rw [← concluded.underway.afterAll]; exact foundHeld) ends
    rw [← concluded.underway.afterAll] at foundReleased
    obtain ⟨reply, answered, symbols, -⟩ | ⟨fault, refused, -⟩ := published
    · obtain ⟨c, found, same⟩ :=
        symbols_afterAll foundReleased kept concluded.last.nothingSince
      refine ⟨reply, held, c, answered, foundHeld, ?_, same.trans symbols⟩
      rw [concluded.last.split, afterAll_append, afterAll_cons]
      exact found
    · rw [concluded.underway.split, always_append] at acceptsRan
      obtain ⟨reply, same⟩ := ok_of_mem_history acceptsRan.2.2
        (by rw [refused]; exact List.mem_singleton_self _)
      cases same

/-- A main file is set anew for a workspace, later an invocation is asked for, and no main file is
set after it.  When the workspace is at rest, the published symbols are those of this main file
exactly if an invocation has begun since it was set, or if the one that was under way then had the
same file to compile. -/
theorem published_for_main_file_iff (initial : s.Initial) {during : List Event}
    {sets asks : Event} {file : String} {old : Context}
    (possible : s.Possible (before ++ sets :: (during ++ asks :: since)))
    (accepts : s.Always Accepts (before ++ sets :: (during ++ asks :: since)))
    (found : (s.afterAll before).registry.context? id = some old)
    (workspace : old.isWorkspace = true)
    (named : (s.afterAll before).contextChange? sets id = some (.setMainFile file true))
    (nonempty : file ≠ "")
    (asked : (((s.afterAll before).after sets).afterAll during).contextChange? asks id =
      some .begin)
    (kept : ((s.afterAll before).after sets).Always (fun s e => renames id s e = false)
      (during ++ asks :: since))
    (idle : (s.afterAll (before ++ sets :: (during ++ asks :: since))).isRunning id = false) :
    let es := before ++ sets :: (during ++ asks :: since)
    ∃ c, (s.afterAll es).registry.context? id = some c ∧ c.mainFile = file ∧
      (s.PublishedFor id es (c.root.joinText c.mainFile) ↔
        ((s.afterAll before).after sets).history (begunBy id) (during ++ asks :: since) ≠ [] ∨
          ∃ first start ran carrier, s.Underway id before first start ran carrier ∧
            (s.afterAll first).targetOf id = some (c.root.joinText c.mainFile)) := by
  intro es
  have foundSet := context?_after found sets
  rw [named, Option.elim_some, Context.apply, Context.setMainFile, if_pos workspace] at foundSet
  have targetSet : ((s.afterAll before).after sets).targetOf id =
      some (old.root.joinText file) := by
    simp [targetOf, foundSet, Context.target?, Context.mainFile?, workspace, nonempty]
  obtain ⟨c, foundEnd, mainFile, root, -⟩ := mainFile_afterAll foundSet kept
  refine ⟨c, by rw [afterAll_append, afterAll_cons]; exact foundEnd, mainFile, ?_⟩
  rw [show c.root = old.root from root, show c.mainFile = file from mainFile]
  have roster := initial.roster
  have steady := initial.steady
  have resting : (s.afterAll es).invocations id = [] :=
    (steady.afterAll roster possible).isRunning_eq_false_iff.mp idle
  have split : es = (before ++ sets :: (during ++ [asks])) ++ since := by simp [es]
  have running : (s.afterAll (before ++ sets :: (during ++ [asks]))).invocations id ≠ [] := by
    have same : before ++ sets :: (during ++ asks :: since) =
        (before ++ sets :: during) ++ asks :: since := by simp
    rw [same, possible_append] at possible
    have targets := (targetOf_afterAll foundSet (always_append.mp kept).1).trans targetSet
    rw [← afterAll_cons, ← afterAll_append] at asked targets
    have runs := running_of_asked (steady.afterAll roster possible.1)
      (roster.afterAll (before ++ sets :: during)) possible.2.1 asked targets
    simpa using runs
  rw [show before ++ sets :: (during ++ asks :: since) = es from rfl, split] at possible accepts
  rw [split] at resting ⊢
  obtain ⟨more, first, start, run, carrier, rest, rfl, concluded⟩ :=
    exists_concluded initial possible running resting
  have keptRest : ((s.afterAll (before ++ sets :: (during ++ [asks]) ++ more)).after
      (.advance carrier)).Always (fun s e => renames id s e = false) rest := by
    have keeps := (always_append.mp (always_append.mp kept).2.2).2.2
    simpa using keeps
  rw [concluded.publishedFor_iff initial possible accepts keptRest]
  have last := concluded.lastBegun initial possible resting
  rw [← split] at last
  obtain ⟨begun, more, _, later, rfl⟩ | ⟨nothing, ran, lastBefore, behind⟩ :=
    last.cases (begunBy_of_not_begin (by simp [named]))
  · -- The last invocation to begin has begun for the new main file.
    rw [later, always_append] at kept
    have targets := (targetOf_afterAll foundSet kept.1).trans targetSet
    rw [afterAll_append, afterAll_cons]
    exact iff_of_true targets (.inl begun)
  · -- The invocation that was under way is the one that has ended last.
    have underwaySince := concluded.underway
    rw [List.append_assoc] at underwaySince
    have underway := underwaySince.earlier lastBefore.split
    constructor
    · exact fun targets => .inr ⟨first, start, ran, carrier, underway, targets⟩
    · rintro (begins | ⟨other, _, _, _, otherUnderway, targets⟩)
      · exact absurd nothing begins
      · rw [List.append_assoc, possible_append] at possible
        obtain ⟨rfl, -, -⟩ := lastBefore.unique (otherUnderway.last initial possible.1)
        exact targets

/-- The context of a workspace that belongs to no registry. -/
def soleWorkspace : State := { registry := { store := [.workspace ⟨"/w"⟩ {} .nobody] } }

theorem initial_soleWorkspace : soleWorkspace.Initial :=
  ⟨rfl, rfl, rfl, rfl, rfl, rfl, by decide⟩

/-- An invocation for `a.pwn` is held back, and meanwhile the main file becomes `b.pwn`. -/
def overtakenRun : List Event :=
  let report (name : String) :=
    "\x7b\"kind\":\"functions\",\"payload\":[\x7b\"name\":\"" ++ name ++ "\"\x7d]\x7d"
  [.instruct (.record ⟨"/w/a.pwn"⟩ (.ofTexts (report "old") "")),
    .instruct (.record ⟨"/w/b.pwn"⟩ (.ofTexts (report "new") "")), .instruct .hold,
    .assign 0 "a.pwn" true, .run 0, .advance 0, .assign 0 "b.pwn" true, .run 0, .release 0,
    .advance 0, .advance 0]

/-- Once the workspace is at rest, setting the main file `b.pwn` again has it compiled. -/
theorem published_for_main_file_overtakenRun :
    let sets : Event := .assign 0 "b.pwn" true
    let es := overtakenRun ++ sets :: ([] ++ .run 0 :: [.advance 1, .advance 1, .advance 1])
    soleWorkspace.Initial ∧ soleWorkspace.Possible es ∧ soleWorkspace.Always Accepts es ∧
      (soleWorkspace.afterAll es).isRunning 0 = false ∧
        soleWorkspace.PublishedFor 0 es ⟨"/w/b.pwn"⟩ := by
  intro sets es
  have possible : soleWorkspace.Possible es := by decide +kernel
  have accepts : soleWorkspace.Always Accepts es := by decide +kernel
  have idle : (soleWorkspace.afterAll es).isRunning 0 = false := by decide +kernel
  obtain ⟨old, found⟩ : ∃ old, (soleWorkspace.afterAll overtakenRun).registry.context? 0 = some old :=
    Option.isSome_iff_exists.mp (by decide +kernel)
  have kind : ((soleWorkspace.afterAll overtakenRun).registry.context? 0).any (·.isWorkspace) =
      true := by decide +kernel
  rw [found, Option.any_some] at kind
  have named : (soleWorkspace.afterAll overtakenRun).contextChange? sets 0 =
      some (.setMainFile "b.pwn" true) := by decide +kernel
  obtain ⟨c, foundEnd, mainFile, published⟩ := published_for_main_file_iff initial_soleWorkspace
    possible accepts found kind named (by decide) (by decide +kernel) (by decide +kernel) idle
  have target : ((soleWorkspace.afterAll es).registry.context? 0).map
      (fun c => c.root.joinText c.mainFile) = some ⟨"/w/b.pwn"⟩ := by decide +kernel
  rw [foundEnd, Option.map_some, Option.some.injEq] at target
  rw [target] at published
  exact ⟨initial_soleWorkspace, possible, accepts, idle,
    published.mpr (.inl (by decide +kernel))⟩

/-- The request for `b.pwn` is dropped, and the symbols of `a.pwn` are published instead. -/
theorem overtakenRun_published_for_other :
    soleWorkspace.Possible overtakenRun ∧ soleWorkspace.Always Accepts overtakenRun ∧
      (soleWorkspace.afterAll overtakenRun).isRunning 0 = false ∧
      (soleWorkspace.afterAll overtakenRun).targetOf 0 = some ⟨"/w/b.pwn"⟩ ∧
      soleWorkspace.PublishedFor 0 overtakenRun ⟨"/w/a.pwn"⟩ ∧
      ¬ soleWorkspace.PublishedFor 0 overtakenRun ⟨"/w/b.pwn"⟩ := by
  have possible : soleWorkspace.Possible overtakenRun := by decide +kernel
  have accepts : soleWorkspace.Always Accepts overtakenRun := by decide +kernel
  have concluded : soleWorkspace.Concluded 0 overtakenRun (overtakenRun.take 9)
      (overtakenRun.take 4) (.run 0) ((overtakenRun.take 9).drop 5) 0 [.advance 0] :=
    ⟨⟨by decide +kernel, by decide +kernel, by decide +kernel⟩,
      ⟨by decide +kernel, by decide +kernel, by decide +kernel⟩⟩
  have published := concluded.publishedFor_iff initial_soleWorkspace possible accepts
    (by decide +kernel)
  refine ⟨possible, accepts, by decide +kernel, by decide +kernel, ?_, ?_⟩
  · rw [published]
    decide +kernel
  · rw [published]
    decide +kernel

end PawnQuery.Engine.State
