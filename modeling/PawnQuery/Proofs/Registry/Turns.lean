import PawnQuery.Proofs.Engine.Course
import PawnQuery.Proofs.Registry.Sweep

/-!
# One operation after the other

Operations of the registry and sweeps may be asked for at any time.  If each of them has ended before
the next one begins, at most one task works on the tables at a time, whatever invocations do
meanwhile.  Then nobody opens a workspace behind the back of a sweep, so every open workspace keeps
its context, and what a sweep does can be told from the registry that it finds.
-/

namespace PawnQuery

namespace Registry

/-- The change opens no workspace and closes none. -/
def Change.sparesWorkspaces : Change → Bool
  | .tables (.register _ _) | .tables (.detach _) | .tables (.forget _) | .tables .clear => false
  | _ => true

theorem workspaces_apply {r : Registry} {change : Change}
    (spares : change.sparesWorkspaces = true) : (r.apply change).workspaces = r.workspaces := by
  cases change with
  | context changed step => exact (r.tables_changeContext changed step).2
  | tables change =>
    cases change with
    | markInitialized => rfl
    | fetch key create =>
      simp only [apply, applyTables]
      obtain ⟨id, _, equal⟩ | ⟨_, _, equal⟩ | ⟨_, _, equal⟩ := r.obtain_cases key create <;>
        rw [equal]
    | subsume key owner =>
      simp only [apply, applyTables]
      obtain ⟨_, _, equal⟩ | ⟨_, equal⟩ := r.subsume_cases key owner <;> rw [equal]
    | register _ _ | detach _ | forget _ | clear => cases spares

end Registry

namespace Engine

/-- The task carries out an operation of the registry or a sweep. -/
def Activity.isWork : Activity → Bool
  | .launch _ _ | .giveUp _ | .collect _ _ | .tell _ | .wait _ | .leave => false
  | _ => true

namespace State

/-- An operation of the registry is asked for, or a sweep begins when an invocation has ended. -/
def beginsWork (s : State) : Event → Bool
  | .perform o => o.activity.isWork
  | .advance task => (s.activity? task).any fun a =>
      !a.isWork && (s.turn task a).next.activity?.any Activity.isWork
  | _ => false

/-- Nobody works on the tables. -/
def Unoccupied (s : State) : Prop := ∀ t ∈ s.tasks, t.2.isWork = false

/-- Operations of the registry and sweeps take turns: none begins before the one before has ended. -/
def InTurn (s : State) (e : Event) : Prop := s.beginsWork e = true → s.Unoccupied

instance (s : State) : Decidable s.Unoccupied :=
  inferInstanceAs (Decidable (∀ t ∈ s.tasks, t.2.isWork = false))

instance (s : State) (e : Event) : Decidable (s.InTurn e) :=
  inferInstanceAs (Decidable (s.beginsWork e = true → s.Unoccupied))

/-- One task at most works on the tables, every open workspace has its context, and no workspace is
open under the paths that a sweep has still to look at. -/
structure OneByOne (s : State) : Prop where
  bound : s.registry.Bound
  single : ∀ task other a b, s.activity? task = some a → s.activity? other = some b →
    a.isWork = true → b.isWork = true → task = other
  closed : ∀ task a path rest, s.activity? task = some a →
    a.seeks? = some (path, .sweep rest) → ∀ key ∈ path :: rest,
      s.registry.workspaces.contains key = false

/-! ## What work does to the open workspaces -/

theorem isWork_of_seeks? {a : Activity} {path : Path} {goal : Goal}
    (seeks : a.seeks? = some (path, goal)) : a.isWork = true := by
  cases a <;> first | rfl | cases seeks

theorem workspaces_after {s : State} {e : Event}
    (spares : (s.change? e).all Registry.Change.sparesWorkspaces = true) :
    (s.after e).registry.workspaces = s.registry.workspaces := by
  rw [registry_after]
  cases made : s.change? e with
  | none => rfl
  | some change =>
    rw [made, Option.all_some] at spares
    exact Registry.workspaces_apply spares

/-- Only what asks for an owner on behalf of a sweep, and what does not work on the tables, is sure
to leave the open workspaces alone. -/
theorem spares_advance {s : State} {task : TaskId} {a : Activity}
    (activity : s.activity? task = some a)
    (gentle : a.isWork = false ∨ ∃ path rest, a.seeks? = some (path, .sweep rest)) :
    (s.change? (.advance task)).all Registry.Change.sparesWorkspaces = true := by
  have waits : (a.awaited?.map fun waits => Registry.Change.context waits.1 (.enqueue task)).all
      Registry.Change.sparesWorkspaces = true := by
    cases a.awaited? <;> rfl
  simp only [change?, activity, Option.bind_some]
  cases a with
  | launch _ _ | tell _ | wait _ | leave | resolve _ _ | enter _ _ | search _ _ | inspect _ _ _ =>
    exact waits
  | giveUp _ | collect _ _ => rfl
  | settle path goal owner =>
    obtain idle | ⟨_, _, seeks⟩ := gentle
    · cases idle
    · cases seeks
      rfl
  | register _ _ | detach _ _ | enroll _ | assign _ _ | request _ _ _ | clear | sweep =>
    obtain idle | ⟨_, _, seeks⟩ := gentle
    · cases idle
    · cases seeks

/-- While a task works on the tables, the other tasks leave the open workspaces alone. -/
theorem OneByOne.workspaces_after {s : State} (one : s.OneByOne) {task : TaskId} {a : Activity}
    (activity : s.activity? task = some a) (works : a.isWork = true) {e : Event}
    (elsewhere : e ≠ .advance task) :
    (s.after e).registry.workspaces = s.registry.workspaces := by
  refine State.workspaces_after ?_
  cases e with
  | advance other =>
    cases known : s.activity? other with
    | none => simp [change?, known]
    | some b =>
      refine spares_advance known (.inl (eq_false_of_ne_true fun worksToo => elsewhere ?_))
      rw [one.single task other a b activity known works worksToo]
  | run _ | assign _ _ _ | perform _ | cancel _ | instruct _ | release _ | surround _ _ => rfl

/-! ## One step -/

theorem beginsWork_of_course {s : State} {e : Event} {task : TaskId} {b : Activity}
    (course : Course s e task b) (works : b.isWork = true) :
    s.beginsWork e = true ∨ ∃ a, s.activity? task = some a ∧ a.isWork = true := by
  cases course with
  | stays _ activity => exact .inr ⟨b, activity, works⟩
  | @moves _ a _ activity goes =>
    by_cases worked : a.isWork = true
    · exact .inr ⟨a, activity, worked⟩
    · refine .inl ?_
      simp [beginsWork, activity, worked, goes, works]
  | performs => exact .inl works
  | begins _ => cases works

theorem Roster.not_isWork {s : State} (roster : s.Roster) (unoccupied : s.Unoccupied)
    {task : TaskId} {a : Activity} (activity : s.activity? task = some a) : a.isWork = false :=
  unoccupied _ ((activity?_eq_some_iff roster).mp activity)

/-- Tasks that work on the tables after an event are one task. -/
theorem OneByOne.single_after {s : State} (one : s.OneByOne) (roster : s.Roster) {e : Event}
    (inTurn : s.InTurn e) {task other : TaskId} {a b : Activity}
    (course : Course s e task a) (otherCourse : Course s e other b) (works : a.isWork = true)
    (otherWorks : b.isWork = true) : task = other := by
  -- Two tasks cannot both come to work with one event; else both have worked before.
  by_cases begun : s.beginsWork e = true
  · -- No task has worked before, so both have come to work with this event.
    have fresh : ∀ {task : TaskId} {a : Activity}, s.activity? task = some a → a.isWork ≠ true :=
      fun activity works => by rw [roster.not_isWork (inTurn begun) activity] at works; cases works
    cases course with
    | stays _ activity => exact absurd works (fresh activity)
    | moves =>
      cases otherCourse with
      | stays _ activity => exact absurd otherWorks (fresh activity)
      | moves => rfl
      | begins => cases otherWorks
    | performs =>
      cases otherCourse with
      | stays _ activity => exact absurd otherWorks (fresh activity)
      | performs => rfl
      | begins => cases otherWorks
    | begins => cases works
  · obtain ⟨old, activity, worked⟩ := (beginsWork_of_course course works).resolve_left begun
    obtain ⟨otherOld, otherActivity, otherWorked⟩ :=
      (beginsWork_of_course otherCourse otherWorks).resolve_left begun
    exact one.single task other old otherOld activity otherActivity worked otherWorked

theorem OneByOne.closed_after {s : State} (one : s.OneByOne)
    (distinct : s.registry.registered.Distinct) {e : Event} {task : TaskId} {b : Activity}
    (course : Course s e task b) {path : Path} {rest : List Path}
    (seeks : b.seeks? = some (path, .sweep rest)) : ∀ key ∈ path :: rest,
      (s.after e).registry.workspaces.contains key = false := by
  cases course with
  | stays elsewhere activity =>
    rw [one.workspaces_after activity (isWork_of_seeks? seeks) elsewhere]
    exact one.closed task b path rest activity seeks
  | @moves _ a _ activity goes =>
    have goesOn : a.seeks? = some (path, .sweep rest) → ∀ key ∈ path :: rest,
        (s.after (.advance task)).registry.workspaces.contains key = false := by
      intro sought
      rw [State.workspaces_after (spares_advance activity (.inr ⟨path, rest, sought⟩))]
      exact one.closed task a path rest activity sought
    cases follows_turn goes with
    | opens | alone | enters | passes | searches | awaits | skips | unowned | includes | lacks =>
      exact goesOn seeks
    | sweeps keys =>
      cases seeks
      have spares : (s.change? (.advance task)).all Registry.Change.sparesWorkspaces = true := by
        simp [change?, activity, changeBy?, Activity.awaited?]
      rw [State.workspaces_after spares, ← keys]
      intro key member
      unfold Registry.sweepKeys at member
      split at member
      · exact one.bound.closed_of_standalone distinct key member
      · cases member
    | @swept settled owner key rest =>
      cases seeks
      rw [State.workspaces_after (spares_advance activity (.inr ⟨_, _, rfl⟩))]
      exact fun other member =>
        one.closed task _ settled _ activity rfl other (List.mem_cons_of_mem _ member)
    | refused | answered | published | told | registers | registered | detached | enrolls | assigns
    | assigned | requests | waits => cases seeks
  | @performs o => cases o <;> cases seeks
  | begins => cases seeks

theorem OneByOne.after {s : State} (one : s.OneByOne) (roster : s.Roster)
    (distinct : s.registry.registered.Distinct) {e : Event} (inTurn : s.InTurn e) :
    (s.after e).OneByOne := by
  refine ⟨?_, ?_, ?_⟩
  · refine (bound_after_iff one.bound e).mpr fun uproots => ?_
    cases e with
    | advance task =>
      simp only [Uproots] at uproots
      split at uproots
      next path rest owner activity =>
        have shut := one.closed task _ path rest activity rfl path List.mem_cons_self
        rw [uproots.2.2] at shut
        cases shut
      next => exact uproots
    | _ => exact uproots
  · intro task other a b activity otherActivity
    exact one.single_after roster inTurn (course roster activity) (course roster otherActivity)
  · intro task b path rest activity seeks
    exact one.closed_after distinct (course roster activity) seeks

theorem Initial.oneByOne {s : State} (initial : s.Initial) : s.OneByOne := by
  have nobody : ∀ task a, s.activity? task ≠ some a := fun task a activity => by
    simp [activity?, initial.tasks] at activity
  exact ⟨initial.bound, fun task _ a _ activity => absurd activity (nobody task a),
    fun task a _ _ activity => absurd activity (nobody task a)⟩

/-- If operations and sweeps take turns all along, every open workspace has its context in the
end. -/
theorem Initial.oneByOne_afterAll {s : State} (initial : s.Initial) {es : List Event}
    (inTurn : s.Always InTurn es) : (s.afterAll es).OneByOne := by
  induction es using List.reverseRecOn with
  | nil => exact initial.oneByOne
  | append_singleton es e inductionHypothesis =>
    obtain ⟨before, last, -⟩ := always_append.mp inTurn
    have coherent := coherent_afterAll initial.coherent initial.keyed es
    rw [afterAll_append]
    exact (inductionHypothesis before).after (initial.roster.afterAll es) coherent.contextKeys last

/-! ## A sweep at rest -/

theorem leads_sweep {s : State} (silent : s.Silent) (key : Path) (rest : List Path) :
    Leads s.taskCount (s.begin (.resolve key (.sweep rest)))
      (s.concluded (s.registry.subsumeAll (key :: rest)) .done) := by
  induction rest generalizing s key with
  | nil => exact (silent.leads_resolve key (.sweep [])).trans (silent.nextFree.leads_of_ended rfl)
  | cons next rest inductionHypothesis =>
    have store := s.registry.store_subsume key (s.registry.owner key)
    have resolves := silent.leads_resolve key (.sweep (next :: rest))
    have settles : Leads s.taskCount
        (s.begin (.settle key (.sweep (next :: rest)) (s.registry.owner key)))
        ({ s with registry := s.registry.subsume key (s.registry.owner key) }.begin
          (.resolve next (.sweep rest))) :=
      silent.nextFree.leads_of_ready rfl
    rw [Registry.subsumeAll_cons]
    exact (resolves.trans settles).trans (inductionHypothesis (silent.withRegistry store) next)

/-- A sweep that has the program to itself looks up one path after the other and does nothing
else. -/
theorem concludes_sweep {s : State} (silent : s.Silent) :
    s.Concludes .sweep (s.registry.subsumeAll s.registry.sweepKeys) .done := by
  cases keys : s.registry.sweepKeys with
  | nil =>
    refine concludes_of_leads (silent.nextFree.leads_of_ended ?_)
    simp only [Operation.activity, turn, registry_begin, keys]
    rfl
  | cons key rest =>
    refine concludes_of_leads (.trans (silent.nextFree.leads_of_ready ?_) (leads_sweep silent key rest))
    simp only [Operation.activity, turn, registry_begin, keys]
    rfl

/-- After a run in which operations and sweeps took turns, and while no invocation runs, a sweep
drops the contexts of exactly those scripts whose owner is another path; by then every script that
has a context is its own owner, and another sweep changes nothing.  If files are not routed, or the
first workspaces are not registered yet, a sweep changes nothing at all. -/
theorem sweep_drops_owned {s : State} (initial : s.Initial) {es : List Event}
    (possible : s.Possible es) (inTurn : s.Always InTurn es)
    (idle : ∀ id, (s.afterAll es).isRunning id = false) :
    let u := s.afterAll es
    let r := u.registry
    (∀ path, u.Concludes (.resolve path) r (.owner (r.owner path))) ∧
      (r.workspaceSupport = true → r.initialized = true →
        let swept := { r with
          registered := ⟨r.registered.entries.filter fun e =>
            r.isWorkspace e.2 || (r.owner e.1).same e.1⟩ }
        let v := u.concluded swept .done
        u.Concludes .sweep swept .done ∧
          (∀ key ∈ swept.standaloneKeys, ∃ owner, owner.Same key ∧
            v.Concludes (.resolve key) swept (.owner owner)) ∧
          v.Concludes .sweep swept .done) ∧
      (r.workspaceSupport = false ∨ r.initialized = false → u.Concludes .sweep r .done) := by
  intro u r
  have silent : u.Silent := initial.silent possible idle
  have bound : r.Bound := (initial.oneByOne_afterAll inTurn).bound
  have distinct : r.registered.Distinct :=
    (coherent_afterAll initial.coherent initial.keyed es).contextKeys
  refine ⟨concludes_resolve silent, ?_, ?_⟩
  · intro support initialized swept v
    have keys : r.sweepKeys = r.standaloneKeys := by
      simp [Registry.sweepKeys, support, initialized]
    have store : swept.store = u.registry.store := rfl
    have silentNext : v.Silent := silent.concluded store .done
    refine ⟨?_, ?_, ?_⟩
    · have concludes : u.Concludes .sweep (r.subsumeAll r.sweepKeys) .done := concludes_sweep silent
      rwa [keys, bound.subsumeAll_standaloneKeys distinct] at concludes
    · exact fun key member => ⟨swept.owner key,
        Registry.same_owner_swept bound distinct key member, concludes_resolve silentNext key⟩
    · have concludes : v.Concludes .sweep (swept.subsumeAll swept.sweepKeys) .done :=
        concludes_sweep silentNext
      rwa [show swept.subsumeAll swept.sweepKeys = swept from
        Registry.subsumeAll_swept bound distinct] at concludes
  · intro off
    have keys : r.sweepKeys = [] := by
      obtain support | initialized := off
      · simp [Registry.sweepKeys, support]
      · simp [Registry.sweepKeys, initialized]
    have concludes : u.Concludes .sweep (r.subsumeAll r.sweepKeys) .done := concludes_sweep silent
    rwa [keys] at concludes

/-- Two scripts in the folder of a workspace have contexts of their own; then the workspace is found
to include one of them, and the sweep that is to follow has not begun. -/
def overlookedRun : List Event :=
  let report := "\x7b\"kind\":\"includedFiles\",\"payload\":[\"/w/util.inc\"]\x7d"
  let moves (task : TaskId) (n : Nat) : List Event := .replicate n (.advance task)
  [.perform (.create [{ root := ⟨"/w"⟩, mainFile := some "main.pwn" }])] ++ moves 0 6 ++
    moves 1 4 ++ [.perform (.get ⟨"/w/util.inc"⟩ true)] ++ moves 2 7 ++
    [.perform (.get ⟨"/w/scratch.pwn"⟩ true)] ++ moves 3 7 ++
    [.instruct (.record ⟨"/w/main.pwn"⟩ (.ofTexts report "")), .run 0] ++ moves 4 2

/-- The included script loses its context, the other one keeps it. -/
theorem sweep_drops_owned_overlookedRun :
    Initial {} ∧ Possible {} overlookedRun ∧ Always InTurn {} overlookedRun ∧
      let u := afterAll {} overlookedRun
      (∀ id, u.isRunning id = false) ∧
        u.registry.registered.keys = [⟨"/w"⟩, ⟨"/w/util.inc"⟩, ⟨"/w/scratch.pwn"⟩] ∧
        u.Concludes (.resolve ⟨"/w/util.inc"⟩) u.registry (.owner ⟨"/w"⟩) ∧
        ∃ swept, u.Concludes .sweep swept .done ∧
          swept.registered.keys = [⟨"/w"⟩, ⟨"/w/scratch.pwn"⟩] := by
  have possible : Possible {} overlookedRun := by decide +kernel
  have inTurn : Always InTurn {} overlookedRun := by decide +kernel
  have idle : ∀ id, (afterAll {} overlookedRun).isRunning id = false :=
    isRunning_of_store (by decide +kernel)
  have owner : (afterAll {} overlookedRun).registry.owner ⟨"/w/util.inc"⟩ = ⟨"/w"⟩ := by
    decide +kernel
  have keys : ((afterAll {} overlookedRun).registry.registered.entries.filter fun e =>
      (afterAll {} overlookedRun).registry.isWorkspace e.2 ||
        ((afterAll {} overlookedRun).registry.owner e.1).same e.1).map (·.1) =
      [⟨"/w"⟩, ⟨"/w/scratch.pwn"⟩] := by decide +kernel
  obtain ⟨resolves, sweeps, -⟩ := sweep_drops_owned initial_default possible inTurn idle
  obtain ⟨concludes, -, -⟩ := sweeps (by decide +kernel) (by decide +kernel)
  refine ⟨initial_default, possible, inTurn, idle, by decide +kernel, ?_, _, concludes, keys⟩
  have concludesOwner := resolves ⟨"/w/util.inc"⟩
  rwa [owner] at concludesOwner

end State

end Engine

end PawnQuery
