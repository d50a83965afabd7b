import PawnQuery.Proofs.Engine.Replayed

/-!
# Once the workspaces are open

As long as nobody opens or closes a workspace no main file changes, and no invocation is asked for
but those of scripts.  So a context that shows the report keeps showing it, whatever is published
for it again; and when nothing runs for a context any more, nothing will, so whoever has waited for
this can take up what is found in the report.
-/

namespace PawnQuery

open PawnQuery.Symbols (Findings)

namespace Context

/-- A workspace without main file is for its own folder only. -/
def Suits (c : Context) (path : Path) : Prop :=
  c.isWorkspace = true → c.mainFile? = none → path.Same c.root

/-- The context has these findings or will get them, or it is the workspace of the path and has no
main file. -/
def Serves (c : Context) (path : Path) (found : Findings) : Prop :=
  c.Presents found ∨ c.isWorkspace = true ∧ c.mainFile? = none ∧ path.Same c.root

/-- Nothing runs, and the findings are these; only the workspace of the path has none if it has no
main file. -/
def ShowsFor (c : Context) (path : Path) (found : Findings) : Prop :=
  c.inProgress = false ∧
    if c.isWorkspace = true ∧ c.mainFile? = none then
      path.Same c.root ∧ c.symbols = {} ∧ c.diagnostics = {}
    else c.symbols = found.symbols ∧ c.diagnostics = found.diagnostics

end Context

namespace Engine.State

open PawnQuery.Registry (Prepared)

variable {s : State} {report : String} {limit : Nat} {updater task : TaskId} {e : Event}
  {id : ContextId} {c : Context} {a b : Activity} {path : Path}

/-- No workspace is being opened or closed. -/
structure Settled (s : State) (report : String) (limit : Nat) : Prop where
  replayed : ∃ updater, s.Replayed report limit updater
  quiet : ∀ task a, s.activity? task = some a → a.isUpdate = false

theorem Replayed.settled (replayed : s.Replayed report limit updater)
    (ended : s.activity? updater = none) : s.Settled report limit := by
  refine ⟨⟨updater, replayed⟩, fun task a activity => eq_false_of_ne_true fun updates => ?_⟩
  rw [replayed.alone task a activity updates, ended] at activity
  cases activity

namespace Settled

theorem after (settled : s.Settled report limit) (inOrder : s.InOrder) (reads : s.Reads e) :
    (s.after e).Settled report limit := by
  obtain ⟨updater, replayed⟩ := settled.replayed
  refine ⟨⟨updater, replayed.after inOrder reads⟩, fun task b activity => ?_⟩
  have course : Course s e task b := course inOrder.roster activity
  cases course with
  | stays _ before => exact settled.quiet task b before
  | moves before goes =>
    exact eq_false_of_ne_true fun updates => Bool.false_ne_true <|
      (settled.quiet task _ before).symm.trans ((follows_turn goes).isUpdate updates)
  | performs => exact reads
  | begins => rfl

theorem neverHolds (settled : s.Settled report limit) : NeverHolds s.compiler := by
  obtain ⟨updater, replayed⟩ := settled.replayed
  exact neverHolds_of_repeats replayed.compiler

theorem renames_eq_false (settled : s.Settled report limit) (reads : s.Reads e) (id : ContextId) :
    renames id s e = false := by
  cases made : s.contextChange? e id with
  | none => simp [renames, made]
  | some change =>
    cases touches_of_contextChange? made with
    | assign => exact reads.elim
    | assignNext activity => cases settled.quiet _ _ activity
    | _ => simp [renames, made]

/-- No invocation is asked for but those of scripts. -/
theorem unasked (settled : s.Settled report limit) (id : ContextId) {task : TaskId} :
    s.contextChange? (.advance task) id ≠ some .begin := by
  intro begins
  cases touches_of_contextChange? begins with
  | request activity => cases settled.quiet _ _ activity

theorem context?_after (settled : s.Settled report limit) (reads : s.Reads e)
    (found : s.registry.context? id = some c) :
    ∃ later, (s.after e).registry.context? id = some later ∧ later.mainFile? = c.mainFile? ∧
      later.root = c.root ∧ later.isWorkspace = c.isWorkspace := by
  have always : s.Always (fun s e => renames id s e = false) [e] :=
    ⟨settled.renames_eq_false reads id, trivial⟩
  obtain ⟨later, foundLater, mainFile, root, workspace⟩ := mainFile_afterAll found always
  exact ⟨later, foundLater, by rw [Context.mainFile?, mainFile]; rfl, root, workspace⟩

theorem isUpdate_of_registers {d : Workspace.Descriptor} {files : Files.FileTree}
    (makes : s.changeBy? task a = some (.tables (.register d files))) : a.isUpdate = true := by
  cases a with
  | settle path goal owner => cases goal <;> cases makes
  | wait awaited => cases makes
  | search q left =>
    simp only [changeBy?] at makes
    obtain ⟨_, -, never⟩ := Option.map_eq_some_iff.mp makes
    cases never
  | _ => first | rfl | cases makes

theorem change?_ne_register (settled : s.Settled report limit) (reads : s.Reads e)
    (d : Workspace.Descriptor) (files : Files.FileTree) :
    s.change? e ≠ some (.tables (.register d files)) := by
  intro makes
  cases e with
  | advance moved =>
    obtain ⟨a, activity, makes⟩ := Option.bind_eq_some_iff.mp makes
    have updates := isUpdate_of_registers makes
    rw [settled.quiet moved a activity] at updates
    cases updates
  | perform o | run id => cases makes
  | _ => cases reads

theorem isWorkspace_of_made (settled : s.Settled report limit) (reads : s.Reads e)
    (missing : s.registry.context? id = none)
    (found : (s.after e).registry.context? id = some c) : c.isWorkspace = false := by
  rw [registry_after] at found
  cases made : s.change? e with
  | none =>
    rw [made, Option.elim_none, missing] at found
    cases found
  | some change =>
    rw [made] at found
    obtain ⟨d, files, _, rfl, -, -⟩ | ⟨_, _, rfl⟩ := Registry.made_cases missing change found
    · exact absurd made (settled.change?_ne_register reads d files)
    · rfl

/-- A context has findings or will get them, or nothing has been compiled for it; then it is that of
a script or of a workspace without main file. -/
theorem contexts (settled : s.Settled report limit) (found : s.registry.context? id = some c) :
    c.Presents (findingsIn report limit) ∨
      c.IsBlank ∧ (c.isWorkspace = true → c.mainFile? = none) := by
  obtain ⟨updater, replayed⟩ := settled.replayed
  refine (replayed.contexts id c found).imp_right fun ⟨blank, main⟩ => ⟨blank, fun workspace => ?_⟩
  refine (main workspace).resolve_right ?_
  rintro ⟨rest, added, requests⟩
  cases settled.quiet updater _ requests

/-! ## What a context shows -/

theorem suits_after (settled : s.Settled report limit) (reads : s.Reads e)
    (found : s.registry.context? id = some c) (suits : c.Suits path) :
    ∃ later, (s.after e).registry.context? id = some later ∧ later.Suits path := by
  obtain ⟨later, foundLater, mainFile, root, isWorkspace⟩ := settled.context?_after reads found
  refine ⟨later, foundLater, fun workspace nothing => ?_⟩
  rw [root]
  exact suits (isWorkspace.symm.trans workspace) (mainFile.symm.trans nothing)

theorem serves_after (settled : s.Settled report limit) (reads : s.Reads e)
    (found : s.registry.context? id = some c) (serves : c.Serves path (findingsIn report limit)) :
    ∃ later, (s.after e).registry.context? id = some later ∧
      later.Serves path (findingsIn report limit) := by
  obtain presents | ⟨workspace, nothing, own⟩ := serves
  · obtain ⟨updater, replayed⟩ := settled.replayed
    exact ⟨_, State.context?_after found e,
      .inl (replayed.presents_after found presents (settled.renames_eq_false reads id))⟩
  · obtain ⟨later, foundLater, mainFile, root, isWorkspace⟩ := settled.context?_after reads found
    exact ⟨later, foundLater,
      .inr ⟨isWorkspace.trans workspace, mainFile.trans nothing, by rwa [root]⟩⟩

/-- A workspace that suits a path serves it. -/
theorem serves_of_suits (settled : s.Settled report limit)
    (found : s.registry.context? id = some c) (workspace : c.isWorkspace = true)
    (suits : c.Suits path) : c.Serves path (findingsIn report limit) := by
  obtain presents | ⟨-, main⟩ := settled.contexts found
  · exact .inl presents
  · have nothing := main workspace
    exact .inr ⟨workspace, nothing, suits workspace nothing⟩

theorem serves_run (settled : s.Settled report limit) (found : s.registry.context? id = some c)
    (script : c.isWorkspace = false) (path : Path) :
    ∃ later, (s.run id).registry.context? id = some later ∧
      later.Serves path (findingsIn report limit) := by
  have targets : c.target? ≠ none := by
    intro nothing
    rw [(Context.target?_eq_none_iff.mp nothing).1] at script
    cases script
  have begins : s.contextChange? (.run id) id = some .begin := contextChange?_of_touches .run
  have after := State.context?_after found (.run id)
  rw [begins] at after
  exact ⟨_, after,
    .inl (Context.presents_begin ((settled.contexts found).symm.imp_left (·.1)) targets)⟩

/-- When nothing runs for a context that serves a path, it shows what it should. -/
theorem showsFor_of_serves (settled : s.Settled report limit)
    (found : s.registry.context? id = some c) (serves : c.Serves path (findingsIn report limit))
    (idle : s.isRunning id = false) : c.ShowsFor path (findingsIn report limit) := by
  rw [isRunning_of_found found] at idle
  refine ⟨idle, ?_⟩
  obtain presents | ⟨workspace, nothing, own⟩ := serves
  · rw [if_neg fun both => presents.target (Context.target?_eq_none_iff.mpr both)]
    exact presents.results.resolve_left fun running =>
      running (by simpa [Context.inProgress] using idle)
  · rw [if_pos ⟨workspace, nothing⟩]
    obtain presents | ⟨blank, -⟩ := settled.contexts found
    · exact absurd (Context.target?_eq_none_iff.mpr ⟨workspace, nothing⟩) presents.target
    · exact ⟨own, blank.symbols, blank.diagnostics⟩

/-! ## Waiting -/

theorem idle_advance (settled : s.Settled report limit) (inOrder : s.InOrder) {moved : TaskId}
    (ready : moved ∈ s.queue) (idle : s.isRunning id = false) :
    (s.advance moved).isRunning id = false := by
  have running : (s.advance moved).invocations id = _ :=
    invocations_after inOrder.roster (e := .advance moved) ready id
  rw [begunBy_of_not_begin (settled.unasked id),
    inOrder.steady.isRunning_eq_false_iff.mp idle] at running
  exact (inOrder.advance ready).steady.isRunning_eq_false_iff.mpr running

end Settled

theorem InOrder.idle_of_ended (inOrder : s.InOrder) {moved : TaskId} (ready : moved ∈ s.queue)
    (ends : endedBy id s (.advance moved) ≠ []) : (s.advance moved).isRunning id = false := by
  have running : (s.advance moved).invocations id = _ :=
    invocations_after inOrder.roster (e := .advance moved) ready id
  obtain ⟨ended, member⟩ := List.exists_mem_of_ne_nil _ ends
  have carries := mem_invocations_of_mem_endedBy inOrder.roster member
  have busy : s.invocations id ≠ [] := List.ne_nil_of_mem carries
  obtain ⟨carrier, alone⟩ := invocations_eq_singleton inOrder.steady busy
  rw [alone, List.mem_singleton] at carries
  subst carries
  rw [begunBy_of_running inOrder.steady busy, alone] at running
  refine (inOrder.advance ready).steady.isRunning_eq_false_iff.mpr (running.trans ?_)
  simp [member]

/-- A task is to wait for a context, it waits for the end of an invocation, or nothing runs. -/
def Awaits (s : State) (task : TaskId) (id : ContextId) : Prop :=
  s.activity? task = some (.wait id) ∨
    s.activity? task = some .leave ∧ task ∈ s.waitersOf id ∨ s.isRunning id = false

theorem Awaits.advance (awaits : s.Awaits task id) (settled : s.Settled report limit)
    (inOrder : s.InOrder) {moved : TaskId} (ready : moved ∈ s.queue) :
    (s.advance moved).Awaits task id := by
  have waiting := waitersOf_after s (.advance moved) id
  obtain calls | ⟨leaves, waits⟩ | idle := awaits
  · by_cases same : moved = task
    · subst same
      cases running : s.isRunning id with
      | false => exact .inr (.inr (settled.idle_advance inOrder ready running))
      | true =>
        have quiet : endedBy id s (.advance moved) = [] := by
          simp [endedBy, calls, Activity.ended?]
        have queues : callsBy id s (.advance moved) = [moved] :=
          if_pos ⟨contextChange?_of_touches (.call calls rfl), running⟩
        have member : moved ∈ callsBy id s (.advance moved) := by simp [queues]
        obtain ⟨-, -, -, a, after, before, goesOn, now⟩ :=
          mem_callsBy inOrder.orderly inOrder.roster member
        rw [calls] at before
        cases before
        cases goesOn
        rw [if_pos quiet, queues] at waiting
        exact .inr (.inl ⟨now, waiting ▸ List.mem_append_right _ (List.mem_singleton_self _)⟩)
    · refine .inl ?_
      rw [← calls]
      exact activity?_after (e := .advance moved) (inOrder.roster.number_lt calls)
        (fun equal => same (Event.advance.inj equal)) (by simp)
  · have differs : moved ≠ task := by
      rintro rfl
      exact inOrder.orderly.parked id moved waits ready
    by_cases ends : endedBy id s (.advance moved) = []
    · rw [if_pos ends] at waiting
      refine .inr (.inl ⟨?_, waiting ▸ List.mem_append_left _ waits⟩)
      rw [← leaves]
      exact activity?_after (e := .advance moved) (inOrder.roster.number_lt leaves)
        (fun equal => differs (Event.advance.inj equal)) (by simp)
    · exact .inr (.inr (inOrder.idle_of_ended ready ends))
  · exact .inr (.inr (settled.idle_advance inOrder ready idle))

/-- Whoever has waited for a context that serves a path finds that it shows what it should, on
every schedule. -/
theorem Settled.yields_wait (settled : s.Settled report limit) (inOrder : s.InOrder)
    (placed : s.Placed) (found : s.registry.context? id = some c)
    (serves : c.Serves path (findingsIn report limit)) :
    s.Yields (.wait id) fun done _ =>
      ∃ c, done.registry.context? id = some c ∧ c.ShowsFor path (findingsIn report limit) := by
  refine yields_of_invariant inOrder placed
    (fun t => t.Settled report limit ∧ t.Awaits s.taskCount id ∧
      ∃ c, t.registry.context? id = some c ∧ c.Serves path (findingsIn report limit)) ?_ ?_ ?_ ?_
  · have begun : (s.perform (.wait id)).1.activity? s.taskCount = some (.wait id) :=
      activity?_begin_new inOrder.roster _
    exact ⟨settled.after inOrder (e := .perform (.wait id)) rfl, .inl begun, c, found, serves⟩
  · rintro t moved inOrderNow ⟨settledNow, awaits, now, foundNow, servesNow⟩ ready
    exact ⟨settledNow.after inOrderNow (e := .advance moved) trivial,
      awaits.advance settledNow inOrderNow ready,
      settledNow.serves_after (e := .advance moved) trivial foundNow servesNow⟩
  · rintro t ⟨settledNow, -⟩
    exact settledNow.neverHolds
  · rintro t answer - - ⟨settledNow, awaits, now, foundNow, servesNow⟩ ended -
    obtain calls | ⟨leaves, -⟩ | idle := awaits
    · rw [ended] at calls
      cases calls
    · rw [ended] at leaves
      cases leaves
    · exact ⟨now, foundNow, settledNow.showsFor_of_serves foundNow servesNow idle⟩

end Engine.State

end PawnQuery
