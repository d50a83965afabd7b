import PawnQuery.Context.Basic
import PawnQuery.Path.Map
import PawnQuery.Registry.EntryPoint
import PawnQuery.Workspace.Descriptor

/-!
# Registries

A registry knows which contexts there are and which workspaces are open.  A context is registered
under the folder of its workspace or under its script; two tables, both in the order of first
registration, hold the contexts and the workspaces.  A context that is no longer registered lives
on while somebody still works with it, so contexts are numbered and kept apart from the table.

Each operation below is one atomic section on the tables.
-/

namespace PawnQuery

open PawnQuery.Workspace (Descriptor)

abbrev ContextId := Nat

structure Registry where
  settings : Context.Settings := {}
  /-- Files are routed to workspaces; if not, every file is on its own. -/
  workspaceSupport : Bool := true
  /-- Every context made so far; its place is its number. -/
  store : List Context := []
  /-- The contexts that are registered, by folder or script. -/
  registered : Path.Map ContextId := {}
  /-- The workspaces that are open, by folder. -/
  workspaces : Path.Map Descriptor := {}
  /-- The first workspaces have been registered. -/
  initialized : Bool := false
deriving DecidableEq, Repr, Inhabited

/-- An open workspace whose folder has a context. -/
structure Registry.Candidate where
  root : Path
  context : ContextId
deriving DecidableEq, Repr, Inhabited

/-- A main file that a context is to get. -/
structure Registry.Assignment where
  context : ContextId
  mainFile : String
deriving DecidableEq, Repr, Inhabited

namespace Registry

/-! ## Contexts by number -/

def context? (r : Registry) (id : ContextId) : Option Context := r.store[id]?

def setContext (r : Registry) (id : ContextId) (c : Context) : Registry :=
  { r with store := r.store.set id c }

def addContext (r : Registry) (c : Context) : Registry × ContextId :=
  ({ r with store := r.store ++ [c] }, r.store.length)

def isWorkspace (r : Registry) (id : ContextId) : Bool :=
  (r.context? id).any (·.isWorkspace)

/-! ## Views -/

def contextAt? (r : Registry) (key : Path) : Option ContextId := r.registered.get? key

def contexts (r : Registry) : List Context := r.registered.values.filterMap r.context?

def candidates (r : Registry) : List Candidate :=
  r.workspaces.keys.filterMap fun root => (r.contextAt? root).map fun id => ⟨root, id⟩

def standaloneKeys (r : Registry) : List Path :=
  (r.registered.entries.filter fun e => !r.isWorkspace e.2).map (·.1)

/-! ## Sections -/

/-- Registers a workspace with a fresh context, which is to get its main file next. -/
def register (r : Registry) (d : Descriptor) (files : Files.FileTree) : Registry × Assignment :=
  let settings := { r.settings with options := d.options.getD r.settings.options }
  let (stored, id) := r.addContext (.workspace d.root settings .registry)
  ({ stored with
      registered := stored.registered.insert d.root id
      workspaces := stored.workspaces.insert d.root d },
    ⟨id, d.effectiveMainFile files⟩)

def markInitialized (r : Registry) : Registry := { r with initialized := true }

/-- Closes the workspace of a folder and drops its context. -/
def forget (r : Registry) (key : Path) : Registry :=
  { r with registered := r.registered.erase key, workspaces := r.workspaces.erase key }

/-- Closes the workspaces of all these folders at once. -/
def detach (r : Registry) (roots : List Path) : Registry := roots.foldl forget r

/-- The context registered under a path; a missing one is made for the script if asked for. -/
def obtain (r : Registry) (key : Path) (create : Bool) : Registry × Option ContextId :=
  match r.contextAt? key with
  | some id => (r, some id)
  | none =>
    if create then
      let (stored, id) := r.addContext (.standalone key r.settings)
      ({ stored with registered := stored.registered.insert key id }, some id)
    else (r, none)

/-- Drops the context under `key` if `owner` is another path and has the context of a workspace. -/
def subsume (r : Registry) (key owner : Path) : Registry :=
  if owner.same key then r
  else if (r.contextAt? owner).any r.isWorkspace then
    { r with registered := r.registered.erase key }
  else r

def clear (r : Registry) : Registry :=
  { r with registered := {}, workspaces := {}, initialized := false }

/-- Contexts that are on their own now but may have got an owner; none before the first workspaces
are registered, or when files are not routed. -/
def sweepKeys (r : Registry) : List Path :=
  if r.workspaceSupport && r.initialized then r.standaloneKeys else []

@[simp] theorem context?_addContext (r : Registry) (c : Context) :
    (r.addContext c).1.context? (r.addContext c).2 = some c := by
  simp [addContext, context?]

@[simp] theorem contextAt?_register (r : Registry) (d : Descriptor) (files : Files.FileTree) :
    (r.register d files).1.contextAt? d.root = some (r.register d files).2.context := by
  simp [register, contextAt?, addContext, Path.Map.get?_insert_self]

@[simp] theorem contexts_clear (r : Registry) : r.clear.contexts = [] := rfl

end Registry

end PawnQuery
