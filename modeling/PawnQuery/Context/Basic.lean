import PawnQuery.Compiler.Replay
import PawnQuery.Context.Timestamp
import PawnQuery.Symbols.Findings

/-!
# Contexts

A context holds the latest answers of the compiler for one root: the folder of a workspace or a
single script.  At most one invocation runs for it at a time; a request for another one meanwhile
is dropped.  Who waits for the answers queues up and is released, in order, when the invocation
ends.  Each operation below is one atomic section.
-/

namespace PawnQuery

open PawnQuery.Compiler (Invocation)
open PawnQuery.Symbols (SymbolTable DiagnosticLog Findings)
open PawnQuery.Json (Value Member)
open PawnQuery.Report (Buffer optionalMember pathValue natValue)

structure Context.Settings where
  options : List String := Compiler.defaultOptions
  outputLimit : Nat := Report.defaultLimit
deriving DecidableEq, Repr, Inhabited

abbrev Context.WaiterId := Nat

/-- Who is told when a context has published new findings. -/
inductive Context.Listener where
  | nobody
  /-- The registry, which then drops the contexts of single scripts that have an owner now. -/
  | registry
  | recorder
deriving DecidableEq, Repr, Inhabited

/-- The latest answers of the compiler for one root. -/
structure Context where
  /-- The folder of the workspace or the script. -/
  root : Path
  isWorkspace : Bool
  settings : Context.Settings := {}
  listener : Context.Listener := .nobody
  /-- The main file seen from the root; empty when none is known. -/
  mainFile : String := ""
  /-- The number of invocations that run; never more than one. -/
  progress : Nat := 0
  /-- Who waits for the invocation to end, first come first. -/
  waiters : List Context.WaiterId := []
  symbols : SymbolTable := {}
  diagnostics : DiagnosticLog := {}
  /-- The number of invocations that published their findings. -/
  completedRuns : Nat := 0
  lastCompleted : Option Context.Timestamp := none
deriving DecidableEq, Repr, Inhabited

namespace Context

def standalone (file : Path) (settings : Settings) : Context :=
  { root := file, isWorkspace := false, settings := settings }

def workspace (root : Path) (settings : Settings) (listener : Listener) : Context :=
  { root := root, isWorkspace := true, settings := settings, listener := listener }

def inProgress (c : Context) : Bool := 0 < c.progress

def mainFile? (c : Context) : Option String :=
  if c.mainFile.isEmpty then none else some c.mainFile

/-- The file to compile; a workspace without main file has none. -/
def target? (c : Context) : Option Path :=
  if c.isWorkspace then c.mainFile?.map c.root.joinText else some c.root

/-! ## Atomic sections -/

/-- Sets the main file of a workspace; with `reparse` the symbols are gone at once. -/
def setMainFile (c : Context) (file : String) (reparse : Bool) : Context :=
  if c.isWorkspace then
    { c with mainFile := file, symbols := if reparse then {} else c.symbols }
  else c

/-- Begins an invocation, unless one runs or there is nothing to compile. -/
def begin (c : Context) : Context × Option Invocation :=
  if c.inProgress then (c, none)
  else
    match c.target? with
    | none => (c, none)
    | some target =>
      ({ c with progress := c.progress + 1 }, some (.ofTarget target c.settings.options))

/-- Queues up for the end of the invocation; there is nothing to wait for when none runs. -/
def enqueue (c : Context) (waiter : WaiterId) : Context × Bool :=
  if c.inProgress then ({ c with waiters := c.waiters ++ [waiter] }, true) else (c, false)

/-- Ends an invocation: publishes its findings if it has any, and releases everyone who waits. -/
def finish (c : Context) (findings : Option Findings) (now : Timestamp) :
    Context × List WaiterId :=
  let published :=
    match findings with
    | some f =>
      { c with
        symbols := f.symbols
        diagnostics := f.diagnostics
        completedRuns := c.completedRuns + 1
        lastCompleted := some now }
    | none => c
  ({ published with progress := c.progress - 1, waiters := [] }, c.waiters)

def collect (c : Context) (output : Report.ByteStream) : Findings :=
  .ofReport (({ limit := c.settings.outputLimit } : Buffer).fill output).1.text

@[simp] theorem waiters_finish (c : Context) (findings : Option Findings) (now : Timestamp) :
    (c.finish findings now).1.waiters = [] := rfl

@[simp] theorem root_finish (c : Context) (findings : Option Findings) (now : Timestamp) :
    (c.finish findings now).1.root = c.root := by
  cases findings <;> rfl

@[simp] theorem isWorkspace_finish (c : Context) (findings : Option Findings) (now : Timestamp) :
    (c.finish findings now).1.isWorkspace = c.isWorkspace := by
  cases findings <;> rfl

/-! ## Reporting -/

structure Status where
  root : Path
  isWorkspace : Bool
  mainFile : Option String
  inProgress : Bool
  completedRuns : Nat
  lastCompleted : Option Timestamp
  symbols : Nat
  diagnostics : Nat
deriving DecidableEq, Repr, Inhabited

def status (c : Context) : Status :=
  { root := c.root
    isWorkspace := c.isWorkspace
    mainFile := c.mainFile?
    inProgress := c.inProgress
    completedRuns := c.completedRuns
    lastCompleted := c.lastCompleted
    symbols := c.symbols.length
    diagnostics := c.diagnostics.length }

def Status.toValue (s : Status) : Value :=
  .object <|
    [("root_path", pathValue s.root), ("workspace_scoped", .bool s.isWorkspace)] ++
      optionalMember "main_file" .string s.mainFile ++
      [("in_progress", .bool s.inProgress), ("completed_runs", natValue s.completedRuns)] ++
      optionalMember "last_completed" (fun t => .string t.interchange) s.lastCompleted ++
      [("symbols", natValue s.symbols), ("diagnostics", natValue s.diagnostics)]

end Context

end PawnQuery
