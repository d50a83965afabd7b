import PawnQuery.Proofs.Registry.Routine

/-!
# Who attends to the scripts that stray

In the routine of a registry a script that strays is some task's business: an invocation whose end
will be followed by a sweep, or a sweep that has still to look at the script and will come upon an
owner of it.  There are two ways to be overlooked.  A context is made for a script that has got an
owner since the search for one began, and a sweep finds an owner that is closed before the sweep
comes to act on it.  At rest there are no tasks, so whoever still strays has been overlooked, and no
sweep has begun since.
-/

namespace PawnQuery.Engine

open PawnQuery.Registry (Candidate)

/-- An activity that will have a sweep come upon an owner of a script that strays. -/
inductive Attends (r : Registry) (key : Path) (w : Candidate) : Activity → Prop where
  | launch {id : ContextId} {invocation : Compiler.Invocation} :
      Attends r key w (.launch id invocation)
  | collect {id : ContextId} {reply : Compiler.Reply} : Attends r key w (.collect id reply)
  | tell {id : ContextId} : Attends r key w (.tell id)
  | sweep : Attends r key w .sweep
  | request {rest : List Registry.Assignment} {added : List Workspace.Descriptor}
      (enters : r.enters key w = true) : Attends r key w (.request w.context rest added)
  | later {a : Activity} {path : Path} {rest : List Path}
      (seeks : a.seeks? = some (path, .sweep rest)) (member : key ∈ rest) : Attends r key w a
  | resolve {rest : List Path} : Attends r key w (.resolve key (.sweep rest))
  | enter {q : Query} {left : List Candidate} {rest : List Path} (path : q.path = key)
      (goal : q.goal = .sweep rest) (snapshot : w ∈ q.workspaces)
      (apart : ∀ v ∈ q.workspaces, ¬ v.root.Same key) (within : left ⊆ q.workspaces)
      (ahead : w ∈ left ∨ r.includes key w = true) : Attends r key w (.enter q left)
  | search {q : Query} {left : List Candidate} {rest : List Path} (path : q.path = key)
      (goal : q.goal = .sweep rest) (apart : ∀ v ∈ left, ¬ v.root.Same key) (ahead : w ∈ left)
      (included : r.includes key w = true) : Attends r key w (.search q left)
  | inspect {q : Query} {v : Candidate} {left : List Candidate} {rest : List Path}
      (path : q.path = key) (goal : q.goal = .sweep rest)
      (apart : ∀ u ∈ v :: left, ¬ u.root.Same key) (ahead : w ∈ v :: left)
      (included : r.includes key w = true) : Attends r key w (.inspect q v left)
  | settle {owner : Path} {rest : List Path} (differs : ¬ owner.Same key) :
      Attends r key w (.settle key (.sweep rest) owner)

theorem Attends.congr {r other : Registry} {key : Path} {w : Candidate} {a : Activity}
    (attends : Attends r key w a) (same : other.claims? w.context = r.claims? w.context) :
    Attends other key w a := by
  obtain ⟨enters, includes⟩ := Registry.owns_congr same key
  cases attends with
  | launch => exact .launch
  | collect => exact .collect
  | tell => exact .tell
  | sweep => exact .sweep
  | request entered => exact .request (enters.trans entered)
  | later seeks member => exact .later seeks member
  | resolve => exact .resolve
  | enter path goal snapshot apart within ahead =>
    exact .enter path goal snapshot apart within (ahead.imp_right includes.trans)
  | search path goal apart ahead included =>
    exact .search path goal apart ahead (includes.trans included)
  | inspect path goal apart ahead included =>
    exact .inspect path goal apart ahead (includes.trans included)
  | settle differs => exact .settle differs

namespace State

/-- Some task attends to a script that strays. -/
def Attended (s : State) (key : Path) (w : Candidate) : Prop :=
  ∃ task a, s.activity? task = some a ∧ Attends s.registry key w a

/-- The event leaves a script alone with its context: it makes one for a script that another path
owns, or it ends a sweep's search for the owner when the owner has no context any more. -/
def overlooks (key : Path) (s : State) : Event → Bool
  | .advance task =>
    match s.activity? task with
    | some (.settle _ (.fetch true) owner) =>
      owner == key && (s.registry.contextAt? key).isNone && !(s.registry.owner key).same key
    | some (.settle path (.sweep _) owner) =>
      path == key && !owner.same key && !s.registry.bindsWorkspace owner
    | _ => false
  | _ => false

/-- A sweep begins: it takes down which scripts have contexts. -/
def beginsSweep (s : State) : Event → Bool
  | .advance task => s.activity? task == some .sweep
  | _ => false

variable {s : State} {e : Event} {key : Path} {w : Candidate}

/-! ## The task that moves -/

theorem attended_of_goes (roster : s.Roster) {task : TaskId} {a b : Activity}
    (activity : s.activity? task = some a) (goes : (s.turn task a).next.activity? = some b)
    (attends : Attends (s.after (.advance task)).registry key w b) :
    (s.after (.advance task)).Attended key w := by
  refine ⟨task, b, ?_, attends⟩
  rw [after, activity?_advance activity (roster.number_lt activity), if_pos rfl]
  exact goes

theorem goes_launch {id : ContextId} {invocation : Compiler.Invocation} {task : TaskId}
    (accepts : s.Accepts (.advance task))
    (activity : s.activity? task = some (.launch id invocation)) :
    ∃ reply, (s.turn task (.launch id invocation)).next.activity? = some (.collect id reply) := by
  simp only [Accepts, activity, Option.all_some, takesOn] at accepts
  simp only [turn, launch]
  cases spawned : s.compiler.spawn s.files invocation with
  | mk compiler outcome =>
    rw [spawned] at accepts
    cases outcome with
    | error fault => cases accepts
    | ok reply =>
      refine ⟨reply, ?_⟩
      simp only
      split <;> rfl

theorem goes_tell {id : ContextId} (listens : s.registry.listensTo id = true) (task : TaskId) :
    (s.turn task (.tell id)).next.activity? = some .sweep := by
  obtain ⟨c, found, listens⟩ := (Option.any_eq_true _ _).mp listens
  obtain ⟨workspace, listener⟩ := Bool.and_eq_true_iff.mp listens
  simp only [turn, tell, found, if_pos workspace, beq_iff_eq.mp listener]
  rfl

theorem attended_of_beginsSweep (regular : s.Regular) (roster : s.Roster)
    (begins : s.beginsSweep e = true) (strays : (s.after e).registry.Strays key w) :
    (s.after e).Attended key w := by
  cases e with
  | advance task =>
    have activity : s.activity? task = some .sweep := beq_iff_eq.mp begins
    have same : (s.after (.advance task)).registry = s.registry := by
      rw [registry_after, change?, activity]
      rfl
    rw [same] at strays
    obtain ⟨id, entry, script⟩ := strays.entry
    -- Scripts have contexts only once the first workspaces are registered, so the sweep goes ahead.
    have initialized : s.registry.initialized = true := by
      refine regular.opening.resolve_right fun opening => ?_
      rw [opening.2 (key, id) entry] at script
      cases script
    have keys : s.registry.sweepKeys = s.registry.standaloneKeys := by
      simp [Registry.sweepKeys, regular.support, initialized]
    have member : key ∈ s.registry.sweepKeys := by
      rw [keys]
      exact Registry.mem_standaloneKeys.mpr ⟨id, entry, script⟩
    cases taken : s.registry.sweepKeys with
    | nil =>
      rw [taken] at member
      cases member
    | cons first rest =>
      have goes : (s.turn task .sweep).next.activity? = some (.resolve first (.sweep rest)) := by
        simp only [turn, taken]
        rfl
      refine attended_of_goes roster activity goes ?_
      rw [taken] at member
      obtain rfl | later := List.mem_cons.mp member
      · exact .resolve
      · exact .later rfl later
  | _ => cases begins

/-- Where a workspace comes to own other files than before, a sweep will follow. -/
theorem attended_of_reclaims (regular : s.Regular) (roster : s.Roster) (routine : s.Routine e)
    (keyed : (s.after e).registry.Keyed)
    (reclaims : (s.contextChange? e w.context).any Context.Change.reclaims = true)
    (strays : (s.after e).registry.Strays key w) : (s.after e).Attended key w := by
  obtain ⟨change, made, reclaims⟩ := (Option.any_eq_true _ _).mp reclaims
  cases touches_of_contextChange? made with
  | run => cases reclaims
  | request => cases reclaims
  | giveUp => cases reclaims
  | call => cases reclaims
  | assign => cases routine
  | @collect task reply activity =>
    have goes : (s.turn task (.collect w.context reply)).next.activity? =
        some (.tell w.context) := by
      rw [turn, next_publish]
      rfl
    exact attended_of_goes roster activity goes .tell
  | @assignNext task file rest added activity =>
    have goes : (s.turn task (.assign (⟨w.context, file⟩ :: rest) added)).next.activity? =
        some (.request w.context rest added) := rfl
    refine attended_of_goes roster activity goes (.request (strays.owns.resolve_right ?_))
    have listens := regular.listening task _ activity w.context List.mem_cons_self
    obtain ⟨c, found, listens⟩ := (Option.any_eq_true _ _).mp listens
    have workspace : c.isWorkspace = true := (Bool.and_eq_true_iff.mp listens).1
    have later := context?_after found (.advance task)
    rw [made, Option.elim_some, Context.apply, Context.setMainFile, if_pos workspace] at later
    intro included
    simp only [Registry.includes, Registry.knows, later, Option.any_some, Bool.and_eq_true]
      at included
    cases included.2

/-- Asking for an invocation of a workspace that the script is an entry point of has one run. -/
theorem attended_of_request (regular : (s.after e).Regular) (steady : s.Steady) (roster : s.Roster)
    (allowed : s.Allows e) (made : s.contextChange? e w.context = some .begin)
    (listens : s.registry.listensTo w.context = true) (strays : s.registry.Strays key w)
    (entered : s.registry.enters key w = true) : (s.after e).Attended key w := by
  obtain ⟨c, found, listens⟩ := (Option.any_eq_true _ _).mp listens
  have workspace : c.isWorkspace = true := (Bool.and_eq_true_iff.mp listens).1
  have apart : key.same w.root = false := by
    rw [Bool.eq_false_iff, ne_eq, Path.same_iff]
    exact Registry.not_same_of_closed strays.candidate strays.closed
  have named : ∃ file, c.mainFile? = some file := by
    cases mainFile : c.mainFile? with
    | some file => exact ⟨file, rfl⟩
    | none => simp [Registry.enters, found, mainFile, Registry.isEntryPoint, apart] at entered
  obtain ⟨file, mainFile⟩ := named
  have targets : s.targetOf w.context = some (c.root.joinText file) := by
    simp [targetOf, found, Context.target?, workspace, mainFile]
  have running := running_of_asked steady roster allowed made targets
  obtain ⟨task, member⟩ := List.exists_mem_of_ne_nil _ running
  obtain ⟨a, activity, carries⟩ := (mem_invocations (roster.after e)).mp member
  cases a with
  | launch id invocation => exact ⟨task, _, activity, .launch⟩
  | collect id reply => exact ⟨task, _, activity, .collect⟩
  | giveUp id => exact absurd activity (regular.willing task id)
  | _ => cases carries

/-- A search on behalf of a sweep comes to the owner that it is after, or goes on for it. -/
theorem attends_of_follows (regular : s.Regular) {a b : Activity}
    (strays : s.registry.Strays key w) (attends : Attends s.registry key w a)
    (follows : s.Follows a b) {path : Path} {rest : List Path}
    (seeks : a.seeks? = some (path, .sweep rest))
    (unsettled : ∀ owner, a ≠ .settle path (.sweep rest) owner)
    (seeksOn : b.seeks? = some (path, .sweep rest)) : Attends s.registry key w b := by
  cases attends with
  | launch | collect | tell | sweep | request => cases seeks
  | settle =>
    cases seeks
    exact absurd rfl (unsettled _)
  | later sought member =>
    rw [seeks] at sought
    cases sought
    exact .later seeksOn member
  | resolve =>
    cases follows with
    | opens =>
      refine .enter rfl rfl strays.candidate (fun v member same => ?_) (List.Subset.refl _)
        (.inl strays.candidate)
      exact Registry.not_same_of_closed member strays.closed same.symm
    | alone support =>
      rw [regular.support] at support
      cases support
  | enter equal goal snapshot apart within ahead =>
    subst equal
    cases follows with
    | enters =>
      rw [goal]
      exact .settle (apart _ (within List.mem_cons_self))
    | passes passed =>
      refine .enter rfl goal snapshot apart (List.subset_of_cons_subset within) ?_
      obtain member | included := ahead
      · obtain rfl | later := List.mem_cons.mp member
        · exact .inr (strays.owns.resolve_left (by rw [passed]; exact Bool.false_ne_true))
        · exact .inl later
      · exact .inr included
    | searches =>
      -- No entry point has matched, so the workspace must own the script as a file that it includes.
      exact .search rfl goal apart snapshot (ahead.resolve_left List.not_mem_nil)
  | search equal goal apart ahead included =>
    subst equal
    cases follows with
    | awaits => exact .inspect rfl goal apart ahead included
    | skips elsewhere =>
      refine .search rfl goal (fun v member => apart v (List.mem_cons_of_mem _ member)) ?_ included
      obtain rfl | later := List.mem_cons.mp ahead
      · simp [Registry.includes, elsewhere] at included
      · exact later
    | unowned => cases ahead
  | inspect equal goal apart ahead included =>
    subst equal
    cases follows with
    | includes =>
      rw [goal]
      exact .settle (apart _ List.mem_cons_self)
    | lacks missing =>
      refine .search rfl goal (fun v member => apart v (List.mem_cons_of_mem _ member)) ?_ included
      obtain rfl | later := List.mem_cons.mp ahead
      · simp [Registry.includes, missing] at included
      · exact later

theorem attended_of_search (regular : s.Regular) (roster : s.Roster) {task : TaskId} {a : Activity}
    (activity : s.activity? task = some a) (attends : Attends s.registry key w a)
    (strays : s.registry.Strays key w)
    (same : (s.after (.advance task)).registry.claims? w.context = s.registry.claims? w.context)
    {path : Path} {rest : List Path} (seeks : a.seeks? = some (path, .sweep rest))
    (unsettled : ∀ owner, a ≠ .settle path (.sweep rest) owner) :
    (s.after (.advance task)).Attended key w := by
  obtain ⟨owner, settles⟩ | ⟨b, goes, seeksOn⟩ := s.seeks?_turn task seeks
  · exact absurd settles (unsettled owner)
  · have attendsOn :=
      attends_of_follows regular strays attends (follows_turn goes) seeks unsettled seeksOn
    exact attended_of_goes roster activity goes (attendsOn.congr same)

theorem attended_of_settle (roster : s.Roster) {task : TaskId} {path owner : Path}
    {rest : List Path} (activity : s.activity? task = some (.settle path (.sweep rest) owner))
    (member : key ∈ rest) : (s.after (.advance task)).Attended key w := by
  cases rest with
  | nil => cases member
  | cons next rest =>
    have goes : (s.turn task (.settle path (.sweep (next :: rest)) owner)).next.activity? =
        some (.resolve next (.sweep rest)) := rfl
    refine attended_of_goes roster activity goes ?_
    obtain rfl | later := List.mem_cons.mp member
    · exact .resolve
    · exact .later rfl later

/-- A sweep that has found an owner takes the script's context away, unless the owner has none any
more. -/
theorem overlooks_of_settle {task : TaskId} {owner : Path} {rest : List Path}
    (activity : s.activity? task = some (.settle key (.sweep rest) owner))
    (differs : ¬ owner.Same key) (strays : (s.after (.advance task)).registry.Strays key w) :
    overlooks key s (.advance task) = true := by
  have apart : owner.same key = false := by
    rw [Bool.eq_false_iff, ne_eq, Path.same_iff]
    exact differs
  cases binds : s.registry.bindsWorkspace owner with
  | false => simp [overlooks, activity, apart, binds]
  | true =>
    obtain ⟨id, entry, -⟩ := strays.entry
    rw [registry_after, change?, activity] at entry
    obtain ⟨-, -, equal⟩ | ⟨spared, -⟩ := s.registry.subsume_cases key owner
    · have gone : (key, id) ∈ (s.registry.subsume key owner).registered.entries := entry
      rw [equal] at gone
      obtain ⟨-, other⟩ := List.mem_filter.mp gone
      rw [Bool.not_eq_true', ← Bool.not_eq_true, Path.same_iff] at other
      exact absurd (Path.Same.refl key) other
    · exact absurd ⟨differs, binds⟩ spared

theorem attended_of_moves (regular : s.Regular) (regularAfter : (s.after e).Regular)
    (steady : s.Steady) (roster : s.Roster) (allowed : s.Allows e) (accepts : s.Accepts e)
    {task : TaskId} {a : Activity} (moves : e = .advance task) (activity : s.activity? task = some a)
    (attends : Attends s.registry key w a) (takenDown : a ≠ .sweep)
    (strays : s.registry.Strays key w) (straysAfter : (s.after e).registry.Strays key w)
    (same : (s.after e).registry.claims? w.context = s.registry.claims? w.context) :
    (s.after e).Attended key w ∨ overlooks key s e = true := by
  subst moves
  have goesOn : ∀ path rest, a.seeks? = some (path, .sweep rest) →
      (∀ owner, a ≠ .settle path (.sweep rest) owner) → (s.after (.advance task)).Attended key w :=
    fun _ _ => attended_of_search regular roster activity attends strays same
  cases attends with
  | launch =>
    obtain ⟨reply, goes⟩ := goes_launch accepts activity
    exact .inl (attended_of_goes roster activity goes .collect)
  | @collect id reply =>
    have goes : (s.turn task (.collect id reply)).next.activity? = some (.tell id) := by
      rw [turn, next_publish]
      rfl
    exact .inl (attended_of_goes roster activity goes .tell)
  | tell =>
    have listens := regular.listening task _ activity _ (List.mem_singleton_self _)
    exact .inl (attended_of_goes roster activity (goes_tell listens task) .sweep)
  | sweep => exact absurd rfl takenDown
  | request entered =>
    have listens := regular.listening task _ activity _ List.mem_cons_self
    exact .inl (attended_of_request regularAfter steady roster allowed
      (contextChange?_of_touches (.request activity)) listens strays entered)
  | @later _ path rest seeks member =>
    by_cases settles : ∃ owner, a = .settle path (.sweep rest) owner
    · obtain ⟨owner, rfl⟩ := settles
      exact .inl (attended_of_settle roster activity member)
    · exact .inl (goesOn path rest seeks fun owner equal => settles ⟨owner, equal⟩)
  | resolve => exact .inl (goesOn key _ rfl fun _ equal => by cases equal)
  | enter path goal | search path goal | inspect path goal =>
    exact .inl (goesOn key _ (by rw [Activity.seeks?, path, goal]) fun _ equal => by cases equal)
  | settle differs => exact .inr (overlooks_of_settle activity differs straysAfter)

/-! ## One event of the routine -/

/-- A context that is made for a script that strays from then on is made although the script has
another owner. -/
theorem overlooks_of_made (regular : s.Regular)
    (made : s.change? e = some (.tables (.fetch key true)))
    (missing : s.registry.contextAt? key = none) (closed : s.registry.workspaces.contains key = false)
    (member : w ∈ s.registry.candidates)
    (owns : s.registry.enters key w = true ∨ s.registry.includes key w = true) :
    overlooks key s e = true := by
  obtain ⟨v, candidate, equal⟩ := Registry.exists_owner regular.support member owns
  have other : (s.registry.owner key).same key = false := by
    rw [Bool.eq_false_iff, ne_eq, Path.same_iff, equal]
    exact fun same => Registry.not_same_of_closed candidate closed same.symm
  cases e with
  | advance task =>
    simp only [change?] at made
    obtain ⟨a, activity, made⟩ := Option.bind_eq_some_iff.mp made
    cases a with
    | settle path goal owner =>
      cases goal with
      | fetch create =>
        cases made
        simp [overlooks, activity, missing, other]
      | tell | remove | sweep _ => cases made
    | register todo done => cases todo <;> cases made
    | enroll added => cases added <;> cases made
    | assign assignments added => cases assignments <;> cases made
    | search q left =>
      simp only [changeBy?] at made
      cases waits : (Activity.search q left).awaited? <;> rw [waits] at made <;> cases made
    | _ => cases made
  | run _ | assign _ _ _ => cases made
  | perform _ | cancel _ | instruct _ | release _ | surround _ _ => cases made

/-- With every event of the routine, a script that strays is attended to, or is overlooked now, or
has strayed without attention before. -/
theorem attended_after (regular : s.Regular) (steady : s.Steady) (roster : s.Roster)
    (keyed : s.registry.Keyed) (allowed : s.Allows e) (routine : s.Routine e)
    (accepts : s.Accepts e) (strays : (s.after e).registry.Strays key w) :
    (s.after e).Attended key w ∨ overlooks key s e = true ∨
      s.beginsSweep e = false ∧ s.registry.Strays key w ∧ ¬ s.Attended key w := by
  have regularAfter := regular.after roster routine accepts
  -- Only a sweep that begins and a workspace that reclaims files change much for the script, and
  -- both see to it.  With any other event it strayed before, or its context is made now.
  cases begins : s.beginsSweep e with
  | true => exact .inl (attended_of_beginsSweep regular roster begins strays)
  | false =>
  cases reclaims : (s.contextChange? e w.context).any Context.Change.reclaims with
  | true =>
    exact .inl (attended_of_reclaims regular roster routine (keyed_afterAll keyed [e]) reclaims
      strays)
  | false =>
  have unchanged : (s.after e).registry.claims? w.context = s.registry.claims? w.context ∧
      (s.registry.Strays key w ∨ overlooks key s e = true) := by
    rw [registry_after] at strays ⊢
    cases made : s.change? e with
    | none =>
      rw [made] at strays
      exact ⟨rfl, .inl strays⟩
    | some change =>
      rw [made] at strays
      have gentle : (change.on? w.context).any Context.Change.reclaims = false := by
        simpa [contextChange?, made] using reclaims
      obtain ⟨same, before | ⟨rfl, missing, closed, member, owns⟩⟩ := strays.of_apply keyed gentle
      · exact ⟨same, .inl before⟩
      · exact ⟨same, .inr (overlooks_of_made regular made missing closed member owns)⟩
  obtain ⟨same, before | overlooked⟩ := unchanged
  · by_cases attended : s.Attended key w
    · obtain ⟨task, a, activity, attends⟩ := attended
      by_cases moves : e = .advance task
      · have takenDown : a ≠ .sweep := by
          rintro rfl
          simp [beginsSweep, moves, activity] at begins
        obtain attended | overlooked := attended_of_moves regular regularAfter steady roster allowed
          accepts moves activity attends takenDown before strays same
        · exact .inl attended
        · exact .inr (.inl overlooked)
      · have notDropped : e ≠ .cancel task := by
          rintro rfl
          exact routine
        refine .inl ⟨task, a, ?_, attends.congr same⟩
        rw [activity?_after (roster.number_lt activity) moves notDropped]
        exact activity
    · exact .inr (.inr ⟨rfl, before, attended⟩)
  · exact .inr (.inl overlooked)

end State

end PawnQuery.Engine
