import PawnQuery.Proofs.Registry.Attention

/-!
# Scripts that are overlooked

In the routine of a registry a script that strays is attended to unless it has been overlooked.  At
rest nobody attends to anything any more: whoever has a context of its own then is its own owner, or
was overlooked and has not been seen by a sweep since.  Scripts do get overlooked: who asks for a
context works with the workspaces that were open when the search began, and may wait long for one of
them.
-/

namespace PawnQuery.Engine.State

open PawnQuery.Workspace (Descriptor)

/-- A script was left alone with its context at some time, and no sweep has begun since. -/
def Overlooked (s : State) (key : Path) (es : List Event) : Prop :=
  ∃ before e later, es = before ++ e :: later ∧ overlooks key (s.afterAll before) e = true ∧
    ((s.afterAll before).after e).Always (fun s e => s.beginsSweep e = false) later

variable {s : State} {key : Path}

theorem overlooked_of_last {es : List Event} {e : Event}
    (overlooked : overlooks key (s.afterAll es) e = true) : s.Overlooked key (es ++ [e]) :=
  ⟨es, e, [], rfl, overlooked, trivial⟩

theorem Overlooked.append {es : List Event} (overlooked : s.Overlooked key es) {e : Event}
    (unseen : (s.afterAll es).beginsSweep e = false) : s.Overlooked key (es ++ [e]) := by
  obtain ⟨before, event, later, rfl, overlooks, unseenLater⟩ := overlooked
  refine ⟨before, event, later ++ [e], by simp, overlooks, ?_⟩
  rw [afterAll_append, afterAll_cons] at unseen
  exact always_append.mpr ⟨unseenLater, unseen, trivial⟩

theorem Overlooked.cons {e : Event} {es : List Event}
    (overlooked : (s.after e).Overlooked key es) : s.Overlooked key (e :: es) := by
  obtain ⟨before, event, later, rfl, overlooks, unseen⟩ := overlooked
  exact ⟨e :: before, event, later, rfl, overlooks, unseen⟩

/-! ## The run of a registry -/

theorem Regular.afterAll (regular : s.Regular) (roster : s.Roster) {es : List Event}
    (routine : s.Always Routine es) (accepts : s.Always Accepts es) : (s.afterAll es).Regular := by
  induction es generalizing s with
  | nil => exact regular
  | cons e es inductionHypothesis =>
    exact inductionHypothesis (regular.after roster routine.1 accepts.1) (roster.after e)
      routine.2 accepts.2

/-- If no script strays at first, then those that stray later are attended to or overlooked. -/
theorem attended_or_overlooked (regular : s.Regular) (steady : s.Steady) (roster : s.Roster)
    (keyed : s.registry.Keyed) (settled : ∀ key w, ¬ s.registry.Strays key w) {es : List Event}
    (possible : s.Possible es) (routine : s.Always Routine es) (accepts : s.Always Accepts es)
    {w : Registry.Candidate} (strays : (s.afterAll es).registry.Strays key w) :
    (s.afterAll es).Attended key w ∨ s.Overlooked key es := by
  induction es using List.reverseRecOn with
  | nil => exact absurd strays (settled key w)
  | append_singleton es e inductionHypothesis =>
    obtain ⟨possible, allowed, -⟩ := possible_append.mp possible
    obtain ⟨routine, routineLast, -⟩ := always_append.mp routine
    obtain ⟨accepts, acceptsLast, -⟩ := always_append.mp accepts
    rw [afterAll_append] at strays ⊢
    obtain attended | overlooked | ⟨unseen, before, unattended⟩ :=
      attended_after (regular.afterAll roster routine accepts) (steady.afterAll roster possible)
        (roster.afterAll es) (keyed_afterAll keyed es) allowed routineLast acceptsLast strays
    · exact .inl attended
    · exact .inr (overlooked_of_last overlooked)
    · have overlooked :=
        (inductionHypothesis possible routine accepts before).resolve_left unattended
      exact .inr (overlooked.append unseen)

/-! ## At rest -/

theorem Initial.regular (initial : s.Initial) (support : s.registry.workspaceSupport = true)
    (workspaces : List Descriptor) : (s.after (.perform (.create workspaces))).Regular := by
  have only : ∀ task a, (s.after (.perform (.create workspaces))).activity? task = some a →
      a = .register workspaces [] := by
    intro task a activity
    obtain ⟨t, found, rfl⟩ := Option.map_eq_some_iff.mp activity
    have member := List.mem_of_find?_eq_some found
    simp only [after, perform, begin, initial.tasks, List.nil_append, List.mem_singleton] at member
    rw [member]
    rfl
  refine ⟨support, ?_, ?_, ?_, .inr ⟨?_, ?_⟩⟩
  · intro task a activity id engaged
    rw [only task a activity] at engaged
    cases engaged
  · intro task id activity
    cases only task _ activity
  · intro task activity
    cases only task _ activity
  · exact fun task a activity => ⟨_, _, only task a activity⟩
  · intro entry member
    simp [after, perform, initial.registered] at member

/-- If the first workspaces are registered first, if main files are set by nobody else and if the
compiler never refuses, then at rest every script that has a context of its own is its own owner,
unless it was overlooked and no sweep has begun since.  No workspace is open under the path of such
a context, as long as no sweep takes a workspace's context away. -/
theorem owner_same_or_overlooked (initial : s.Initial)
    (support : s.registry.workspaceSupport = true) {workspaces : List Descriptor}
    {rest : List Event} (possible : s.Possible (.perform (.create workspaces) :: rest))
    (accepts : s.Always Accepts (.perform (.create workspaces) :: rest))
    (routine : (s.after (.perform (.create workspaces))).Always Routine rest)
    (atRest : (s.afterAll (.perform (.create workspaces) :: rest)).tasks = []) :
    let es := .perform (.create workspaces) :: rest
    let u := s.afterAll es
    let r := u.registry
    (∀ path, u.Concludes (.resolve path) r (.owner (r.owner path))) ∧
      (∀ key ∈ r.standaloneKeys, r.workspaces.contains key = false →
        (r.owner key).Same key ∨ s.Overlooked key es) ∧
      (s.Always (fun s e => ¬ s.Uproots e) es →
        ∀ key ∈ r.standaloneKeys, r.workspaces.contains key = false) := by
  intro es u r
  have roster := initial.roster
  have steady : u.Steady := initial.steady.afterAll roster possible
  have tasks : u.tasks = [] := atRest
  have nobody : ∀ task a, u.activity? task ≠ some a := fun task a activity => by
    simp [activity?, tasks] at activity
  have idle : ∀ id, u.isRunning id = false := fun id =>
    steady.isRunning_eq_false_iff.mpr (by simp [invocations, tasks])
  refine ⟨concludes_resolve (initial.silent possible idle), ?_, ?_⟩
  · intro key member closed
    obtain ⟨id, entry, script⟩ := Registry.mem_standaloneKeys.mp member
    have regular := initial.regular support workspaces
    have supported : r.workspaceSupport = true :=
      (regular.afterAll (roster.after _) routine accepts.2).support
    by_cases same : (r.owner key).Same key
    · exact .inl same
    · obtain ⟨w, strays⟩ := (Registry.exists_strays_iff supported entry script closed).mpr same
      have settled : ∀ key w,
          ¬ (s.after (.perform (.create workspaces))).registry.Strays key w := by
        rintro key w ⟨⟨id, entry, -⟩, -⟩
        simp [after, perform, initial.registered] at entry
      obtain ⟨task, a, activity, -⟩ | overlooked :=
        attended_or_overlooked regular (initial.steady.after roster possible.1) (roster.after _)
          initial.keyed settled possible.2 routine accepts.2 strays
      · exact absurd activity (nobody task a)
      · exact .inr overlooked.cons
  · intro rooted
    exact (bound_afterAll initial.bound rooted).closed_of_standalone
      (coherent_afterAll initial.coherent initial.keyed es).contextKeys

/-- Somebody asks for the context of a script in `/w`, and waits for an invocation that is held back.
Meanwhile a workspace `/w/sub` is opened, and its main file is found to include the script.  By the
time that the context is made both workspaces have been followed by their sweeps. -/
def belatedRun : List Event :=
  let report := "\x7b\"kind\":\"includedFiles\",\"payload\":[\"/w/sub/util.inc\"]\x7d"
  let moves (task : TaskId) (n : Nat) : List Event := .replicate n (.advance task)
  moves 0 3 ++ [.instruct (.record ⟨"/w/sub/main.pwn"⟩ (.ofTexts report "")), .instruct .hold,
    .perform (.update [] [{ root := ⟨"/w"⟩, mainFile := some "main.pwn" }])] ++ moves 1 6 ++
    moves 2 1 ++ [.perform (.get ⟨"/w/sub/util.inc"⟩ true)] ++ moves 3 4 ++
    [.instruct .hold, .release 1,
      .perform (.update [] [{ root := ⟨"/w/sub"⟩, mainFile := some "main.pwn" }])] ++ moves 4 6 ++
    moves 5 4 ++ [.release 0] ++ moves 2 3 ++ moves 3 3

theorem belatedRun_routine :
    let es := .perform (.create []) :: belatedRun
    Possible {} es ∧ Always Accepts {} es ∧
      (after {} (.perform (.create []))).Always Routine belatedRun ∧
      (afterAll {} es).tasks = [] := by
  decide +kernel

/-- The script is overlooked as its context is made. -/
theorem owner_same_or_overlooked_belatedRun :
    let es := .perform (.create []) :: belatedRun
    Initial {} ∧ Possible {} es ∧ Always Accepts {} es ∧
      (after {} (.perform (.create []))).Always Routine belatedRun ∧
      (afterAll {} es).tasks = [] ∧ Overlooked {} ⟨"/w/sub/util.inc"⟩ es := by
  intro es
  obtain ⟨possible, accepts, routine, atRest⟩ := belatedRun_routine
  obtain ⟨-, owners, -⟩ :=
    owner_same_or_overlooked initial_default rfl possible accepts routine atRest
  have other : ((afterAll {} es).registry.owner ⟨"/w/sub/util.inc"⟩).same ⟨"/w/sub/util.inc"⟩ =
      false := by decide +kernel
  refine ⟨initial_default, possible, accepts, routine, atRest, ?_⟩
  refine (owners _ (by decide +kernel) (by decide +kernel)).resolve_left fun same => ?_
  rw [Path.same_iff.mpr same] at other
  cases other

/-- At rest the script has a context of its own, although its owner is the workspace `/w/sub`. -/
theorem belatedRun_owner_other :
    let es := .perform (.create []) :: belatedRun
    let u := afterAll {} es
    Initial {} ∧ Possible {} es ∧ Always Accepts {} es ∧
      (after {} (.perform (.create []))).Always Routine belatedRun ∧ u.tasks = [] ∧
      ⟨"/w/sub/util.inc"⟩ ∈ u.registry.standaloneKeys ∧
      u.Concludes (.resolve ⟨"/w/sub/util.inc"⟩) u.registry (.owner ⟨"/w/sub"⟩) ∧
      ¬ (⟨"/w/sub"⟩ : Path).Same ⟨"/w/sub/util.inc"⟩ := by
  intro es u
  obtain ⟨possible, accepts, routine, atRest⟩ := belatedRun_routine
  have idle : ∀ id, u.isRunning id = false := isRunning_of_store (by decide +kernel)
  have owner : u.registry.owner ⟨"/w/sub/util.inc"⟩ = ⟨"/w/sub"⟩ := by decide +kernel
  refine ⟨initial_default, possible, accepts, routine, atRest, by decide +kernel, ?_,
    by decide +kernel⟩
  have concludes := concludes_resolve (initial_default.silent possible idle) ⟨"/w/sub/util.inc"⟩
  rwa [owner] at concludes

end PawnQuery.Engine.State
