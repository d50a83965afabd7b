import PawnQuery.Proofs.Engine.Balance
import PawnQuery.Proofs.Engine.Delivery
import PawnQuery.Proofs.Engine.Outcome

/-!
# One report for every invocation

A replaying compiler without recordings answers every invocation with the same report.  Then a
context has not been compiled at all, or an invocation runs for it, or it shows what is found in
this report; it does not matter which invocation has published it, or when.  The workspaces that are
being opened keep apart: each gets its main file while nothing has been compiled for it, and its
first invocation right after.
-/

namespace PawnQuery

open PawnQuery.Compiler (Backend Invocation Replay Reply)
open PawnQuery.Report (ByteStream)
open PawnQuery.Symbols (Findings)

/-! ## The compiler -/

namespace Compiler

/-- The replaying compiler answers every invocation with this report, and at once. -/
structure Replay.Repeats (r : Replay) (report : String) : Prop where
  recordings : r.recordings = []
  streams : r.streams = []
  fallback : r.fallback = some (.ofTexts report "")
  refusal : r.refusal = none
  gate : r.gate = none

def Backend.Repeats (report : String) : Backend → Prop
  | .program _ => False
  | .replay r => r.Repeats report

theorem Replay.repeats_setFallback (report : String) :
    (({} : Replay).setFallback report).Repeats report := ⟨rfl, rfl, rfl, rfl, rfl⟩

theorem Backend.Repeats.spawn {compiler : Backend} {report : String}
    (repeats : compiler.Repeats report) (files : Files.FileTree) (i : Invocation) :
    (compiler.spawn files i).1.Repeats report ∧
      ∃ reply, (compiler.spawn files i).2 = .ok reply ∧ reply.output = .ofText report ∧
        reply.gate = none := by
  cases compiler with
  | program executable => cases repeats
  | replay r =>
    obtain ⟨recordings, streams, fallback, refusal, gate⟩ := repeats
    simp only [Backend.spawn, Replay.spawn, Replay.recordingFor, refusal, streams, recordings,
      fallback, gate, List.find?_nil, Option.getD_some]
    exact ⟨⟨rfl, rfl, rfl, rfl, rfl⟩, _, rfl, rfl, rfl⟩

end Compiler

theorem Engine.neverHolds_of_repeats {compiler : Backend} {report : String}
    (repeats : compiler.Repeats report) : NeverHolds compiler := by
  cases compiler with
  | program executable => cases repeats
  | replay r => exact neverHolds_replay_iff.mpr fun _ => by rw [repeats.gate]; rfl

/-! ## Contexts -/

namespace Context

/-- Nothing has been compiled for the context. -/
structure IsBlank (c : Context) : Prop where
  progress : c.progress = 0
  symbols : c.symbols = {}
  diagnostics : c.diagnostics = {}

/-- There is something to compile, and an invocation runs or these findings are shown. -/
structure Presents (c : Context) (found : Findings) : Prop where
  target : c.target? ≠ none
  results : c.progress ≠ 0 ∨ c.symbols = found.symbols ∧ c.diagnostics = found.diagnostics

variable {c : Context} {found : Findings}

theorem IsFresh.isBlank (fresh : c.IsFresh) : c.IsBlank := by
  obtain equal | equal := fresh <;> rw [equal] <;> exact ⟨rfl, rfl, rfl⟩

theorem IsFresh.mainFile (fresh : c.IsFresh) : c.mainFile = "" := by
  obtain equal | equal := fresh <;> rw [equal] <;> rfl

theorem IsBlank.setMainFile (blank : c.IsBlank) (file : String) (reparse : Bool) :
    (c.apply (.setMainFile file reparse)).IsBlank := by
  simp only [apply, Context.setMainFile]
  split
  · exact ⟨blank.progress, by simp [blank.symbols], blank.diagnostics⟩
  · exact blank

theorem IsBlank.enqueue (blank : c.IsBlank) (waiter : WaiterId) :
    (c.apply (.enqueue waiter)).IsBlank := by
  obtain ⟨_, equal⟩ | ⟨_, equal⟩ := c.enqueue_cases waiter <;> simp only [apply, equal]
  · exact blank
  · exact ⟨blank.progress, blank.symbols, blank.diagnostics⟩

theorem Presents.enqueue (presents : c.Presents found) (waiter : WaiterId) :
    (c.apply (.enqueue waiter)).Presents found := by
  obtain ⟨_, equal⟩ | ⟨_, equal⟩ := c.enqueue_cases waiter <;> simp only [apply, equal]
  · exact presents
  · exact ⟨presents.target, presents.results⟩

/-- Asking for an invocation leaves nothing blank that could be compiled. -/
theorem presents_begin (read : c.IsBlank ∨ c.Presents found) (targets : c.target? ≠ none) :
    (c.apply .begin).Presents found := by
  obtain equal | ⟨target, idle, _, equal⟩ := c.begin_cases
  · rw [apply, equal]
    refine read.resolve_left fun blank => targets ?_
    have idle : c.inProgress = false := by simp [inProgress, blank.progress]
    rw [begin, idle] at equal
    cases none : c.target? with
    | none => rfl
    | some target => simp [none] at equal
  · simp only [apply, equal]
    exact ⟨targets, .inl Nat.one_ne_zero⟩

theorem apply_begin_of_target?_eq_none (nothing : c.target? = none) : c.apply .begin = c := by
  obtain equal | ⟨target, _, some, _⟩ := c.begin_cases
  · rw [apply, equal]
  · rw [nothing] at some
    cases some

theorem target?_eq_none_iff :
    c.target? = none ↔ c.isWorkspace = true ∧ c.mainFile? = none := by
  unfold target?
  cases c.isWorkspace <;> simp

theorem target?_finish (c : Context) (findings : Option Findings) (now : Timestamp) :
    (c.finish findings now).1.target? = c.target? := by
  cases findings <;> rfl

theorem settings_finish (c : Context) (findings : Option Findings) (now : Timestamp) :
    (c.finish findings now).1.settings = c.settings := by
  cases findings <;> rfl

theorem Presents.finish (presents : c.Presents found) {reply : Reply}
    (same : c.collect reply.output = found) (now : Timestamp) :
    (c.apply (.finish (some reply) now)).Presents found := by
  have tables := c.tables_apply_finish reply now
  have target : (c.apply (.finish (some reply) now)).target? = c.target? := c.target?_finish _ now
  rw [same] at tables
  exact ⟨by rw [target]; exact presents.target, .inr tables⟩

theorem settings_apply (c : Context) (change : Change) :
    (c.apply change).settings = c.settings := by
  cases change with
  | begin => obtain equal | ⟨_, _, _, equal⟩ := c.begin_cases <;> simp only [apply, equal]
  | enqueue waiter =>
    obtain ⟨_, equal⟩ | ⟨_, equal⟩ := c.enqueue_cases waiter <;> simp only [apply, equal]
  | finish reply now => exact c.settings_finish _ now
  | setMainFile file reparse => simp only [apply, setMainFile]; split <;> rfl

end Context

/-! ## New contexts -/

namespace Registry

theorem settings_apply (r : Registry) (change : Change) :
    (r.apply change).settings = r.settings := by
  cases change with
  | context changed step => simp only [apply, changeContext]; split <;> rfl
  | tables change =>
    cases change with
    | fetch key create =>
      simp only [apply, applyTables]
      obtain ⟨id, _, equal⟩ | ⟨_, _, equal⟩ | ⟨_, _, equal⟩ := r.obtain_cases key create <;>
        rw [equal]
    | subsume key owner =>
      simp only [apply, applyTables]
      obtain ⟨_, _, equal⟩ | ⟨_, equal⟩ := r.subsume_cases key owner <;> rw [equal]
    | detach roots => simp only [apply, applyTables, detach_eq]
    | register _ _ | markInitialized | forget _ | clear => rfl

/-- A new context is a workspace's where one is opened, and that of a script where one is looked
up; it gets the general settings but for the options. -/
theorem made_cases {r : Registry} {id : ContextId} {c : Context} (missing : r.context? id = none)
    (change : Change) (found : (r.apply change).context? id = some c) :
    (∃ d files settings, change = .tables (.register d files) ∧
        settings.outputLimit = r.settings.outputLimit ∧
        c = .workspace d.root settings .registry) ∨
      ∃ key, change = .tables (.fetch key true) ∧ c = .standalone key r.settings := by
  have outside : r.store.length ≤ id := List.getElem?_eq_none_iff.mp missing
  have appended : ∀ new : Context, (r.store ++ [new])[id]? = some c → c = new := by
    intro new found
    rw [List.getElem?_append_right outside] at found
    exact List.mem_singleton.mp (List.mem_of_getElem? found)
  have unchanged : ∀ other : Registry, other.store = r.store → other.context? id ≠ some c := by
    intro other same found
    rw [context?, same] at found
    rw [context?, found] at missing
    cases missing
  cases change with
  | context changed step =>
    exfalso
    have store : (r.apply (.context changed step)).store.length = r.store.length := by
      simp only [apply, changeContext]
      split
      · rfl
      · exact List.length_set
    have inside : id < (r.apply (.context changed step)).store.length :=
      (List.getElem?_eq_some_iff.mp found).1
    rw [store] at inside
    exact Nat.not_lt.mpr outside inside
  | tables change =>
    cases change with
    | register d files =>
      have new := appended _ found
      subst new
      exact .inl ⟨d, files, { r.settings with options := d.options.getD r.settings.options }, rfl,
        rfl, rfl⟩
    | fetch key create =>
      simp only [apply, applyTables] at found
      obtain ⟨_, _, equal⟩ | ⟨_, _, equal⟩ | ⟨_, rfl, equal⟩ := r.obtain_cases key create <;>
        rw [equal] at found
      · exact absurd found (unchanged _ rfl)
      · exact absurd found (unchanged _ rfl)
      · exact .inr ⟨key, rfl, appended _ found⟩
    | detach roots => exact absurd found (unchanged _ (r.store_detach roots))
    | subsume key owner => exact absurd found (unchanged _ (r.store_subsume key owner))
    | markInitialized | forget key | clear => exact absurd found (unchanged _ rfl)

theorem context?_register (r : Registry) (d : Workspace.Descriptor) (files : Files.FileTree) :
    (r.register d files).1.context? r.store.length =
      some (.workspace d.root { r.settings with options := d.options.getD r.settings.options }
        .registry) := by
  simp [register, addContext, context?]

/-- The contexts are those of different workspaces, and nothing has been compiled for them. -/
structure Prepared (r : Registry) (ids : List ContextId) : Prop where
  nodup : ids.Nodup
  blank : ∀ id ∈ ids, ∃ c, r.context? id = some c ∧ c.isWorkspace = true ∧ c.IsBlank

end Registry

/-! ## States -/

namespace Engine

open PawnQuery.Registry (Prepared)

def Activity.isUpdate : Activity → Bool
  | .register .. | .detach .. | .enroll _ | .assign .. | .request .. => true
  | _ => false

/-- The contexts that are to get a main file, and the one that has just got it. -/
def Activity.prepares : Activity → List ContextId
  | .register _ made => made.map (·.context)
  | .assign rest _ => rest.map (·.context)
  | .request id rest _ => id :: rest.map (·.context)
  | _ => []

/-- An invocation was not refused, and what answers it is the report. -/
def Activity.Replays (report : String) : Activity → Prop
  | .collect _ reply => reply.output = .ofText report
  | .giveUp _ => False
  | _ => True

theorem Operation.replays (o : Operation) (report : String) : o.activity.Replays report := by
  cases o <;> trivial

theorem Operation.prepares (o : Operation) : o.activity.prepares = [] := by
  cases o <;> rfl

namespace State

variable {s : State} {report : String} {limit : Nat} {updater task : TaskId} {e : Event}
  {id : ContextId} {c : Context} {a b : Activity}

/-- What is found in a report when this many bytes of it are kept. -/
def findingsIn (report : String) (limit : Nat) : Findings :=
  .ofReport ((ByteStream.ofText report).textWithin limit)

/-- The event asks for nothing that updates workspaces; a script may be compiled. -/
def Reads (s : State) : Event → Prop
  | .advance _ => True
  | .perform o => o.activity.isUpdate = false
  | .run id => s.registry.isWorkspace id = false
  | _ => False

/-- Every invocation is answered with the report, and one task at most updates the workspaces. -/
structure Replayed (s : State) (report : String) (limit : Nat) (updater : TaskId) : Prop where
  compiler : s.compiler.Repeats report
  settings : s.registry.settings.outputLimit = limit
  limits : ∀ id c, s.registry.context? id = some c → c.settings.outputLimit = limit
  replays : ∀ task a, s.activity? task = some a → a.Replays report
  alone : ∀ task a, s.activity? task = some a → a.isUpdate = true → task = updater
  /-- Nothing has been compiled for the workspaces that get their main files. -/
  prepared : ∀ a, s.activity? updater = some a → s.registry.Prepared a.prepares
  /-- A context has findings or will get them, unless it has not been compiled; and a workspace with
  a main file is just about to be. -/
  contexts : ∀ id c, s.registry.context? id = some c → c.Presents (findingsIn report limit) ∨
    c.IsBlank ∧ (c.isWorkspace = true → c.mainFile? = none ∨
      ∃ rest added, s.activity? updater = some (.request id rest added))

theorem replayed_of_empty (repeats : s.compiler.Repeats report)
    (settings : s.registry.settings.outputLimit = limit) (store : s.registry.store = [])
    (first : ∀ task a, s.activity? task = some a →
      task = updater ∧ ∃ o : Operation, a = o.activity) :
    s.Replayed report limit updater := by
  have nothing : ∀ id c, s.registry.context? id ≠ some c := by simp [Registry.context?, store]
  refine ⟨repeats, settings, ?_, ?_, ?_, ?_, ?_⟩
  · exact fun id c found => absurd found (nothing id c)
  · intro task a activity
    obtain ⟨-, o, rfl⟩ := first task a activity
    exact o.replays report
  · exact fun task a activity _ => (first task a activity).1
  · intro a activity
    obtain ⟨-, o, rfl⟩ := first updater a activity
    rw [o.prepares]
    exact ⟨List.nodup_nil, fun _ member => absurd member List.not_mem_nil⟩
  · exact fun id c found => absurd found (nothing id c)

/-! ### Tasks -/

theorem Follows.isUpdate (follows : s.Follows a b) (updates : b.isUpdate = true) :
    a.isUpdate = true := by
  cases follows <;> first | rfl | cases updates

theorem Follows.replays (follows : s.Follows a b) (repeats : s.compiler.Repeats report) :
    b.Replays report := by
  cases follows with
  | @refused id invocation compiler fault spawned =>
    obtain ⟨-, reply, accepted, -⟩ := repeats.spawn s.files invocation
    rw [spawned] at accepted
    cases accepted
  | @answered id invocation compiler reply spawned =>
    obtain ⟨-, other, same, output, -⟩ := repeats.spawn s.files invocation
    rw [spawned] at same
    cases same
    exact output
  | _ => trivial

theorem Follows.prepares (follows : s.Follows a b) (task : TaskId) :
    b.prepares.Sublist a.prepares ∨
      ∃ d, s.changeBy? task a = some (.tables (.register d s.files)) ∧
        b.prepares = a.prepares ++ [s.registry.store.length] := by
  cases follows with
  | @registers d => exact .inr ⟨d, rfl, List.map_append⟩
  | @enrolls d => exact .inr ⟨d, rfl, rfl⟩
  | registered | assigns => exact .inl (List.Sublist.refl _)
  | requests => exact .inl (List.sublist_cons_self _ _)
  | _ => exact .inl (List.nil_sublist _)

theorem compiler_after_of_reads (repeats : s.compiler.Repeats report) (reads : s.Reads e) :
    (s.after e).compiler.Repeats report := by
  cases e with
  | advance moved =>
    simp only [State.after]
    cases activity : s.activity? moved with
    | none =>
      simp only [advance, activity]
      exact repeats
    | some a =>
      rw [(compiler_advance activity).1]
      cases launches : a.launched? with
      | none => rwa [compiler_turn_of_not_launched s moved launches]
      | some launched =>
        cases a with
        | launch id invocation =>
          rw [turn, compiler_launch]
          exact (repeats.spawn s.files invocation).1
        | _ => cases launches
  | perform o => exact repeats
  | run id =>
    simp only [State.after, State.run]
    rw [(compiler_foldl_begin _ _).1]
    unfold startInvocation
    split
    · exact repeats
    · split <;> exact repeats
  | _ => cases reads

namespace Replayed

theorem tasks_after (replayed : s.Replayed report limit updater) (roster : s.Roster)
    (reads : s.Reads e) (activity : (s.after e).activity? task = some b) :
    b.Replays report ∧ (b.isUpdate = true → task = updater) := by
  have course : Course s e task b := course roster activity
  cases course with
  | stays _ before => exact ⟨replayed.replays _ _ before, replayed.alone _ _ before⟩
  | moves before goes =>
    have follows := follows_turn goes
    exact ⟨follows.replays replayed.compiler,
      fun updates => replayed.alone _ _ before (follows.isUpdate updates)⟩
  | @performs o =>
    have plain : o.activity.isUpdate = false := reads
    refine ⟨o.replays report, fun updates => ?_⟩
    rw [plain] at updates
    cases updates
  | begins => exact ⟨trivial, fun updates => absurd updates Bool.false_ne_true⟩

/-! ### Contexts -/

theorem not_ended_of_blank (steady : s.Steady) (roster : s.Roster)
    (found : s.registry.context? id = some c) (blank : c.IsBlank)
    (activity : s.activity? task = some a) (ending : a.ended? = some id) : False := by
  have carries : task ∈ s.invocations id :=
    (mem_invocations roster).mpr ⟨a, activity, invocation?_of_ended? ending⟩
  rw [(steady.waiters_eq_nil found blank.progress).2] at carries
  exact List.not_mem_nil carries

theorem isBlank_after (replayed : s.Replayed report limit updater) (inOrder : s.InOrder)
    (reads : s.Reads e) (found : s.registry.context? id = some c) (blank : c.IsBlank)
    (unasked : s.contextChange? e id ≠ some .begin) :
    ((s.contextChange? e id).elim c c.apply).IsBlank := by
  cases made : s.contextChange? e id with
  | none => exact blank
  | some change =>
    rw [made] at unasked
    cases touches_of_contextChange? made with
    | run | request => exact absurd rfl unasked
    | assign => exact reads.elim
    | assignNext => exact blank.setMainFile _ _
    | call => exact blank.enqueue _
    | giveUp activity => exact (replayed.replays _ _ activity).elim
    | collect activity =>
      exact (not_ended_of_blank inOrder.steady inOrder.roster found blank activity rfl).elim

/-- A context that has findings or will get them does so until its main file is set. -/
theorem presents_after (replayed : s.Replayed report limit updater)
    (found : s.registry.context? id = some c) (presents : c.Presents (findingsIn report limit))
    (kept : renames id s e = false) :
    ((s.contextChange? e id).elim c c.apply).Presents (findingsIn report limit) := by
  cases made : s.contextChange? e id with
  | none => exact presents
  | some change =>
    simp only [renames, made] at kept
    cases touches_of_contextChange? made with
    | run | request => exact Context.presents_begin (.inr presents) presents.target
    | assign | assignNext => cases kept
    | call => exact presents.enqueue _
    | giveUp activity => exact (replayed.replays _ _ activity).elim
    | @collect task reply activity =>
      refine presents.finish ?_ _
      have output : reply.output = .ofText report := replayed.replays _ _ activity
      rw [c.collect_eq, output, replayed.limits id c found]
      rfl

theorem limits_after (replayed : s.Replayed report limit updater)
    (found : (s.after e).registry.context? id = some c) : c.settings.outputLimit = limit := by
  cases before : s.registry.context? id with
  | some old =>
    rw [context?_after before e, Option.some.injEq] at found
    subst found
    cases s.contextChange? e id with
    | none => exact replayed.limits id old before
    | some change =>
      rw [Option.elim_some, old.settings_apply]
      exact replayed.limits id old before
  | none =>
    rw [registry_after] at found
    cases made : s.change? e with
    | none => rw [made, Option.elim_none, before] at found; cases found
    | some change =>
      rw [made] at found
      obtain ⟨_, _, _, _, kept, rfl⟩ | ⟨_, _, rfl⟩ := Registry.made_cases before change found
      · exact kept.trans replayed.settings
      · exact replayed.settings

/-- A context that is prepared is kept so unless the task that prepares it asks for its invocation
now. -/
theorem blank_after_of_prepared (replayed : s.Replayed report limit updater) (inOrder : s.InOrder)
    (reads : s.Reads e) {ids : List ContextId} (prepared : s.registry.Prepared ids)
    (member : id ∈ ids)
    (unasked : ∀ rest added, e = .advance updater →
      s.activity? updater ≠ some (.request id rest added)) :
    ∃ c, (s.after e).registry.context? id = some c ∧ c.isWorkspace = true ∧ c.IsBlank := by
  obtain ⟨c, found, workspace, blank⟩ := prepared.blank id member
  refine ⟨_, context?_after found e, ?_,
    replayed.isBlank_after inOrder reads found blank fun begins => ?_⟩
  · cases s.contextChange? e id <;> simp [workspace]
  · cases touches_of_contextChange? begins with
    | run =>
      have script : s.registry.isWorkspace id = false := reads
      simp [Registry.isWorkspace, found, workspace] at script
    | @request task rest added activity =>
      obtain rfl := replayed.alone task _ activity rfl
      exact unasked rest added rfl activity

theorem prepared_after (replayed : s.Replayed report limit updater) (inOrder : s.InOrder)
    (reads : s.Reads e) (activity : (s.after e).activity? updater = some b) :
    (s.after e).registry.Prepared b.prepares := by
  have course : Course s e updater b := course inOrder.roster activity
  cases course with
  | stays elsewhere before =>
    have prepared := replayed.prepared b before
    exact ⟨prepared.nodup, fun id member => replayed.blank_after_of_prepared inOrder reads prepared
      member fun _ _ moves => absurd moves elsewhere⟩
  | @performs o =>
    rw [o.prepares]
    exact ⟨List.nodup_nil, fun _ member => absurd member List.not_mem_nil⟩
  | begins => exact ⟨List.nodup_nil, fun _ member => absurd member List.not_mem_nil⟩
  | @moves _ a _ before goes =>
    have follows := follows_turn goes
    have prepared := replayed.prepared a before
    obtain fewer | ⟨d, makes, more⟩ := follows.prepares updater
    · refine ⟨prepared.nodup.sublist fewer, fun id member => ?_⟩
      refine replayed.blank_after_of_prepared inOrder reads prepared (fewer.subset member) ?_
      rintro rest added - asks
      rw [before] at asks
      cases asks
      cases follows
      exact (List.nodup_cons.mp prepared.nodup).1 member
    · have new := Registry.context?_register s.registry d s.files
      have registry : (s.after (.advance updater)).registry =
          (s.registry.register d s.files).1 := by
        rw [registry_after]
        simp only [change?, before, Option.bind_some, makes]
        rfl
      have kept : ∀ id ∈ a.prepares, ∃ c,
          (s.after (.advance updater)).registry.context? id = some c ∧ c.isWorkspace = true ∧
            c.IsBlank := by
        intro id member
        refine replayed.blank_after_of_prepared inOrder reads prepared member ?_
        rintro rest added - asks
        rw [before] at asks
        cases asks
        cases makes
      rw [more]
      refine ⟨List.nodup_append.mpr ⟨prepared.nodup, List.nodup_singleton _, ?_⟩, ?_⟩
      · rintro id member _ last rfl
        obtain ⟨c, found, -⟩ := prepared.blank id member
        rw [List.mem_singleton.mp last] at found
        exact Nat.lt_irrefl _ (List.getElem?_eq_some_iff.mp found).1
      · intro id member
        obtain old | last := List.mem_append.mp member
        · exact kept id old
        · rw [List.mem_singleton.mp last, registry]
          exact ⟨_, new, rfl, (Context.isFresh_workspace _ _ _).isBlank⟩

/-- A main file is set for a context for which nothing has been compiled, and the invocation is
asked for next. -/
theorem requests_after_renames (replayed : s.Replayed report limit updater) (inOrder : s.InOrder)
    (reads : s.Reads e) (found : s.registry.context? id = some c)
    (sets : renames id s e = true) :
    ((s.contextChange? e id).elim c c.apply).IsBlank ∧
      ∃ rest added, (s.after e).activity? updater = some (.request id rest added) := by
  cases made : s.contextChange? e id with
  | none => simp [renames, made] at sets
  | some change =>
    simp only [renames, made] at sets
    cases touches_of_contextChange? made with
    | assign => exact reads.elim
    | @assignNext task file rest added activity =>
      obtain rfl := replayed.alone task _ activity rfl
      obtain ⟨other, same, -, blank⟩ :=
        (replayed.prepared _ activity).blank id (List.mem_cons_self ..)
      rw [found, Option.some.injEq] at same
      subst same
      refine ⟨blank.setMainFile file true, rest, added, ?_⟩
      rw [State.after, activity?_advance activity (inOrder.roster.number_lt activity), if_pos rfl]
      rfl
    | _ => cases sets

/-- A workspace with a main file for which nothing has been compiled is about to be, until its
invocation is asked for. -/
theorem main_after (inOrder : s.InOrder) (reads : s.Reads e)
    (found : s.registry.context? id = some c) (kept : renames id s e = false)
    (unasked : s.contextChange? e id ≠ some .begin)
    (main : c.isWorkspace = true → c.mainFile? = none ∨
      ∃ rest added, s.activity? updater = some (.request id rest added)) {later : Context}
    (foundLater : (s.after e).registry.context? id = some later)
    (workspace : later.isWorkspace = true) :
    later.mainFile? = none ∨
      ∃ rest added, (s.after e).activity? updater = some (.request id rest added) := by
  have always : s.Always (fun s e => renames id s e = false) [e] := ⟨kept, trivial⟩
  obtain ⟨same, foundSame, mainFile, -, isWorkspace⟩ := mainFile_afterAll found always
  rw [afterAll_cons, afterAll_nil, foundLater, Option.some.injEq] at foundSame
  subst foundSame
  obtain nothing | ⟨rest, added, requests⟩ := main (isWorkspace.symm.trans workspace)
  · exact .inl (by rw [Context.mainFile?, mainFile]; exact nothing)
  · refine .inr ⟨rest, added, ?_⟩
    rw [activity?_after (inOrder.roster.number_lt requests) _ _, requests]
    · rintro rfl
      exact unasked (contextChange?_of_touches (.request requests))
    · rintro rfl
      exact reads

theorem contexts_after (replayed : s.Replayed report limit updater) (inOrder : s.InOrder)
    (reads : s.Reads e) (found : (s.after e).registry.context? id = some c) :
    c.Presents (findingsIn report limit) ∨
      c.IsBlank ∧ (c.isWorkspace = true → c.mainFile? = none ∨
        ∃ rest added, (s.after e).activity? updater = some (.request id rest added)) := by
  cases before : s.registry.context? id with
  | none =>
    have fresh := isFresh_of_context?_after before e found
    exact .inr ⟨fresh.isBlank, fun _ => .inl (by simp [Context.mainFile?, fresh.mainFile])⟩
  | some old =>
    have changed := context?_after before e
    rw [found, Option.some.injEq] at changed
    subst changed
    cases sets : renames id s e with
    | true =>
      obtain ⟨blank, requests⟩ := replayed.requests_after_renames inOrder reads before sets
      exact .inr ⟨blank, fun _ => .inr requests⟩
    | false =>
      obtain presents | ⟨blank, main⟩ := replayed.contexts id old before
      · exact .inl (replayed.presents_after before presents sets)
      · by_cases begins : s.contextChange? e id = some .begin
        · rw [begins, Option.elim_some]
          by_cases nothing : old.target? = none
          · rw [Context.apply_begin_of_target?_eq_none nothing]
            exact .inr ⟨blank, fun _ => .inl (Context.target?_eq_none_iff.mp nothing).2⟩
          · exact .inl (Context.presents_begin (.inl blank) nothing)
        · exact .inr ⟨replayed.isBlank_after inOrder reads before blank begins,
            main_after inOrder reads before sets begins main found⟩

theorem after (replayed : s.Replayed report limit updater) (inOrder : s.InOrder)
    (reads : s.Reads e) : (s.after e).Replayed report limit updater where
  compiler := compiler_after_of_reads replayed.compiler reads
  settings := by
    rw [registry_after]
    cases s.change? e with
    | none => exact replayed.settings
    | some change => exact (congrArg _ (s.registry.settings_apply change)).trans replayed.settings
  limits _ _ found := replayed.limits_after found
  replays _ _ activity := (replayed.tasks_after inOrder.roster reads activity).1
  alone _ _ activity := (replayed.tasks_after inOrder.roster reads activity).2
  prepared _ activity := replayed.prepared_after inOrder reads activity
  contexts _ _ found := replayed.contexts_after inOrder reads found

end Replayed

end State

end Engine

end PawnQuery
