import PawnQuery.Registry.Basic

/-!
# Changes of a registry

Every section of the program changes a registry in one of a few ways: it changes the tables, or it
changes one context.  A change is data here, so that what a whole run does to a registry can be
read off its changes.  A context, once made, stays in store under its number; only changes of that
context touch it, and none of them touches its root or what it is the context of.
-/

namespace PawnQuery

open PawnQuery.Compiler (Reply)
open PawnQuery.Context (Timestamp)
open PawnQuery.Files (FileTree)
open PawnQuery.Workspace (Descriptor)

namespace Context

/-- A change of one context. -/
inductive Change where
  /-- An invocation is asked for. -/
  | begin
  /-- Somebody asks to be told when the invocation ends. -/
  | enqueue (waiter : WaiterId)
  /-- The invocation ends, with a reply unless it was refused. -/
  | finish (reply : Option Reply) (now : Timestamp)
  | setMainFile (file : String) (reparse : Bool)
deriving DecidableEq, Repr, Inhabited

def apply (c : Context) : Change → Context
  | .begin => c.begin.1
  | .enqueue waiter => (c.enqueue waiter).1
  | .finish reply now => (c.finish (reply.map fun r => c.collect r.output) now).1
  | .setMainFile file reparse => c.setMainFile file reparse

/-- A context as it is made, for a script or for a workspace. -/
def IsFresh (c : Context) : Prop :=
  c = .standalone c.root c.settings ∨ c = .workspace c.root c.settings c.listener

instance (c : Context) : Decidable c.IsFresh := inferInstanceAs (Decidable (_ ∨ _))

theorem isFresh_standalone (file : Path) (settings : Settings) :
    (standalone file settings).IsFresh := .inl rfl

theorem isFresh_workspace (root : Path) (settings : Settings) (listener : Listener) :
    (workspace root settings listener).IsFresh := .inr rfl

theorem IsFresh.progress {c : Context} (fresh : c.IsFresh) : c.progress = 0 := by
  obtain equal | equal := fresh <;> rw [equal] <;> rfl

theorem IsFresh.waiters {c : Context} (fresh : c.IsFresh) : c.waiters = [] := by
  obtain equal | equal := fresh <;> rw [equal] <;> rfl

/-- Asking for an invocation does nothing, or it counts one more and hands it out. -/
theorem begin_cases (c : Context) :
    c.begin = (c, none) ∨
      ∃ target, c.progress = 0 ∧ c.target? = some target ∧
        c.begin = ({ c with progress := 1 }, some (.ofTarget target c.settings.options)) := by
  unfold begin
  by_cases running : c.inProgress = true
  · exact .inl (by rw [if_pos running])
  · have idle : c.progress = 0 := by simpa [inProgress] using running
    rw [if_neg running]
    cases targets : c.target? with
    | none => exact .inl rfl
    | some target => exact .inr ⟨target, idle, rfl, by simp [idle]⟩

/-- Queueing up does nothing when no invocation runs. -/
theorem enqueue_cases (c : Context) (waiter : WaiterId) :
    (c.progress = 0 ∧ c.enqueue waiter = (c, false)) ∨
      (c.progress ≠ 0 ∧
        c.enqueue waiter = ({ c with waiters := c.waiters ++ [waiter] }, true)) := by
  unfold enqueue inProgress
  by_cases idle : c.progress = 0
  · exact .inl ⟨idle, by simp [idle]⟩
  · exact .inr ⟨idle, by simp [Nat.pos_of_ne_zero idle]⟩

@[simp] theorem root_apply (c : Context) (change : Change) : (c.apply change).root = c.root := by
  cases change with
  | begin => obtain equal | ⟨_, _, _, equal⟩ := c.begin_cases <;> simp only [apply, equal]
  | enqueue waiter =>
    obtain ⟨_, equal⟩ | ⟨_, equal⟩ := c.enqueue_cases waiter <;> simp only [apply, equal]
  | finish reply now => exact root_finish c _ now
  | setMainFile file reparse => simp only [apply, setMainFile]; split <;> rfl

@[simp] theorem isWorkspace_apply (c : Context) (change : Change) :
    (c.apply change).isWorkspace = c.isWorkspace := by
  cases change with
  | begin => obtain equal | ⟨_, _, _, equal⟩ := c.begin_cases <;> simp only [apply, equal]
  | enqueue waiter =>
    obtain ⟨_, equal⟩ | ⟨_, equal⟩ := c.enqueue_cases waiter <;> simp only [apply, equal]
  | finish reply now => exact isWorkspace_finish c _ now
  | setMainFile file reparse => simp only [apply, setMainFile]; split <;> rfl

theorem tables_apply_finish (c : Context) (reply : Reply) (now : Timestamp) :
    (c.apply (.finish (some reply) now)).symbols = (c.collect reply.output).symbols ∧
      (c.apply (.finish (some reply) now)).diagnostics = (c.collect reply.output).diagnostics := by
  simp only [apply, finish, Option.map_some, and_self]

theorem tables_apply_finish_none (c : Context) (now : Timestamp) :
    (c.apply (.finish none now)).symbols = c.symbols ∧
      (c.apply (.finish none now)).diagnostics = c.diagnostics := by
  simp only [apply, finish, Option.map_none, and_self]

end Context

namespace Registry

/-- A change of the tables. -/
inductive TableChange where
  | register (descriptor : Descriptor) (files : FileTree)
  | markInitialized
  | detach (roots : List Path)
  | fetch (key : Path) (create : Bool)
  | forget (key : Path)
  | subsume (key owner : Path)
  | clear
deriving DecidableEq, Repr, Inhabited

/-- A change of the tables or of one context. -/
inductive Change where
  | tables (change : TableChange)
  | context (id : ContextId) (change : Context.Change)
deriving DecidableEq, Repr, Inhabited

def applyTables (r : Registry) : TableChange → Registry
  | .register d files => (r.register d files).1
  | .markInitialized => r.markInitialized
  | .detach roots => r.detach roots
  | .fetch key create => (r.obtain key create).1
  | .forget key => r.forget key
  | .subsume key owner => r.subsume key owner
  | .clear => r.clear

/-- The registry with one context changed; one that does not exist stays away. -/
def changeContext (r : Registry) (id : ContextId) (change : Context.Change) : Registry :=
  match r.context? id with
  | none => r
  | some c => r.setContext id (c.apply change)

def apply (r : Registry) : Change → Registry
  | .tables change => r.applyTables change
  | .context id change => r.changeContext id change

/-- What a change does to the context of this number. -/
def Change.on? (id : ContextId) : Change → Option Context.Change
  | .tables _ => none
  | .context changed change => if changed = id then some change else none

/-! ## Three ways to find a context or none -/

/-- A context is found; or there is none; or there was none and one is made for a script. -/
theorem obtain_cases (r : Registry) (key : Path) (create : Bool) :
    (∃ id, r.contextAt? key = some id ∧ r.obtain key create = (r, some id)) ∨
      (r.contextAt? key = none ∧ create = false ∧ r.obtain key create = (r, none)) ∨
      (r.contextAt? key = none ∧ create = true ∧
        r.obtain key create =
          ({ r with
              store := r.store ++ [.standalone key r.settings]
              registered := r.registered.insert key r.store.length },
            some r.store.length)) := by
  unfold Registry.obtain
  cases r.contextAt? key with
  | some id => exact .inl ⟨id, rfl, rfl⟩
  | none =>
    cases create with
    | false => exact .inr (.inl ⟨rfl, rfl, rfl⟩)
    | true => exact .inr (.inr ⟨rfl, rfl, rfl⟩)

/-- A path is taken off the table if another path has a workspace's context; else nothing is. -/
theorem subsume_cases (r : Registry) (key owner : Path) :
    (¬ owner.Same key ∧ (r.contextAt? owner).any r.isWorkspace = true ∧
        r.subsume key owner = { r with registered := r.registered.erase key }) ∨
      (¬ (¬ owner.Same key ∧ (r.contextAt? owner).any r.isWorkspace = true) ∧
        r.subsume key owner = r) := by
  unfold subsume
  by_cases same : owner.same key = true
  · exact .inr ⟨fun this => this.1 (Path.same_iff.mp same), by rw [if_pos same]⟩
  · rw [if_neg same]
    by_cases owned : (r.contextAt? owner).any r.isWorkspace = true
    · exact .inl ⟨fun this => same (Path.same_iff.mpr this), owned, by rw [if_pos owned]⟩
    · exact .inr ⟨fun this => owned this.2, by rw [if_neg owned]⟩

theorem tables_changeContext (r : Registry) (id : ContextId) (change : Context.Change) :
    (r.changeContext id change).registered = r.registered ∧
      (r.changeContext id change).workspaces = r.workspaces := by
  unfold changeContext
  split <;> exact ⟨rfl, rfl⟩

/-! ## The store -/

theorem setContext_self {r : Registry} {id : ContextId} {c : Context}
    (found : r.context? id = some c) : r.setContext id c = r := by
  obtain ⟨inside, equal⟩ := List.getElem?_eq_some_iff.mp found
  unfold setContext
  rw [← equal, List.set_getElem_self]

theorem context?_setContext {r : Registry} {id : ContextId} {old : Context}
    (found : r.context? id = some old) (c : Context) (other : ContextId) :
    (r.setContext id c).context? other = if id = other then some c else r.context? other := by
  obtain ⟨inside, -⟩ := List.getElem?_eq_some_iff.mp found
  simp only [context?, setContext, List.getElem?_set, if_pos inside]

/-- To close workspaces takes their folders out of both tables and changes nothing else. -/
theorem detach_eq (r : Registry) (roots : List Path) :
    r.detach roots = { r with
      registered := roots.foldl Path.Map.erase r.registered
      workspaces := roots.foldl Path.Map.erase r.workspaces } := by
  unfold detach
  induction roots generalizing r with
  | nil => rfl
  | cons root roots inductionHypothesis => exact inductionHypothesis (r.forget root)

@[simp] theorem store_detach (r : Registry) (roots : List Path) :
    (r.detach roots).store = r.store := by rw [detach_eq]

@[simp] theorem store_subsume (r : Registry) (key owner : Path) :
    (r.subsume key owner).store = r.store := by
  obtain ⟨_, _, equal⟩ | ⟨_, equal⟩ := r.subsume_cases key owner <;> rw [equal]

/-- The tables change without a context being touched; a new one may come into store. -/
theorem store_applyTables (r : Registry) (change : TableChange) :
    ∃ made : List Context, (∀ c ∈ made, c.IsFresh) ∧
      (r.applyTables change).store = r.store ++ made := by
  have nothing : ∃ made : List Context, (∀ c ∈ made, c.IsFresh) ∧ r.store = r.store ++ made :=
    ⟨[], by simp, by simp⟩
  cases change with
  | register d files =>
    refine ⟨[_], ?_, rfl⟩
    simp only [List.mem_singleton, forall_eq]
    exact Context.isFresh_workspace _ _ _
  | fetch key create =>
    simp only [applyTables]
    obtain ⟨id, _, equal⟩ | ⟨_, _, equal⟩ | ⟨_, _, equal⟩ := r.obtain_cases key create
    · rw [equal]; exact nothing
    · rw [equal]; exact nothing
    · refine ⟨[_], ?_, by rw [equal]⟩
      simp only [List.mem_singleton, forall_eq]
      exact Context.isFresh_standalone _ _
  | detach roots => simpa only [applyTables, store_detach] using nothing
  | subsume key owner => simpa only [applyTables, store_subsume] using nothing
  | markInitialized | forget key | clear => exact nothing

theorem context?_apply {r : Registry} {id : ContextId} {c : Context}
    (found : r.context? id = some c) (change : Change) :
    (r.apply change).context? id = some ((change.on? id).elim c c.apply) := by
  cases change with
  | tables change =>
    obtain ⟨made, _, grown⟩ := r.store_applyTables change
    obtain ⟨inside, -⟩ := List.getElem?_eq_some_iff.mp found
    simp only [apply, context?, grown, List.getElem?_append_left inside]
    exact found
  | context changed change =>
    simp only [apply, changeContext, Change.on?]
    by_cases this : changed = id
    · subst this
      simp [found, context?_setContext found]
    · cases other : r.context? changed with
      | none => simp [found, this]
      | some old => simp [context?_setContext other, this, found]

/-- A context that did not exist before a change is fresh after it. -/
theorem isFresh_of_context?_apply {r : Registry} {id : ContextId} {c : Context}
    (missing : r.context? id = none) (change : Change)
    (found : (r.apply change).context? id = some c) : c.IsFresh := by
  cases change with
  | tables change =>
    obtain ⟨made, fresh, grown⟩ := r.store_applyTables change
    have outside : r.store.length ≤ id := List.getElem?_eq_none_iff.mp missing
    simp only [apply, context?, grown, List.getElem?_append_right outside] at found
    exact fresh c (List.mem_of_getElem? found)
  | context changed change =>
    exfalso
    simp only [apply, changeContext] at found
    cases other : r.context? changed with
    | none => simp [other, missing] at found
    | some old =>
      rw [other] at found
      simp only [context?_setContext other] at found
      split at found
      next same => rw [same, missing] at other; cases other
      next => rw [missing] at found; cases found

end Registry

end PawnQuery
