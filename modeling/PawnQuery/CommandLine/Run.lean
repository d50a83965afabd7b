import PawnQuery.CommandLine.Request
import PawnQuery.Config.Load
import PawnQuery.Engine.Operation
import PawnQuery.Output.Contexts
import PawnQuery.Output.Diagnostics
import PawnQuery.Output.Resolutions

/-!
# Running commands

A command is run in a state made for it: the configuration is loaded, what the command line says
about workspaces is added, and the first workspaces are registered.  Then the state is asked what
the command wants to know, and the answer is printed.
-/

namespace PawnQuery.CommandLine

open PawnQuery.Compiler (Backend Replay)
open PawnQuery.Config (Defect LoadFault)
open PawnQuery.Context (Timestamp)
open PawnQuery.Engine (State)
open PawnQuery.Files (FileTree FileFault)
open PawnQuery.Json (Value)
open PawnQuery.Output (Mode Screen Resolution)

/-- What the program can see when it is run. -/
structure Surroundings where
  files : FileTree := {}
  now : Timestamp := ⟨0, 0⟩
  screen : Screen := {}
deriving DecidableEq, Repr, Inhabited

/-! ## Failures -/

inductive RunFault where
  | config (fault : LoadFault)
  | workspace (reason : FileFault)
  | path (path : Path) (reason : FileFault)
  | replay (reason : FileFault)
  | compiler (defect : Defect)
  | noContext (path : Path)
deriving DecidableEq, Repr, Inhabited

namespace RunFault

/-- The wording of a failure and those of the failures behind it, the nearest first. -/
def chain : RunFault → List String
  | .config fault =>
    match fault with
    | .unreadable reason => [fault.message, reason.message]
    | .invalid _ => [fault.message]
  | .compiler defect =>
    match defect with
    | .unreachable reason => [defect.message, reason.message]
    | .missing fault => fault.message :: fault.reason?.toList.map FileFault.message
    | .notADirectory _ => [defect.message]
  | .workspace reason | .replay reason => [reason.message]
  | .path given reason => ["invalid path '" ++ given.text ++ "'", reason.message]
  | .noContext given => ["no context for '" ++ given.text ++ "'"]

def message (fault : RunFault) : String := ": ".intercalate fault.chain

end RunFault

/-! ## The state of a run -/

/-- A path as seen from the root; an empty one cannot be seen. -/
def absolutePath (files : FileTree) (path : Path) : Except FileFault Path :=
  if path.isEmpty then .error .emptyPath
  else .ok (Path.absolute files.workingDirectory path)

def filePath (files : FileTree) (path : Path) : Except RunFault Path :=
  (absolutePath files path).mapError (.path path)

namespace Options

def loadConfig (o : Options) (files : FileTree) : Except RunFault Config := do
  let config ←
    (match o.config with
      | some path => Config.load files path
      | none => Config.loadOrDefault files ⟨Config.fileName⟩).mapError .config
  let roots ← (o.workspaces.mapM (absolutePath files)).mapError .workspace
  return { config with
    workspaces := config.workspaces ++ roots.map fun root => { root := root }
    workspaceSupport := config.workspaceSupport && !o.noWorkspaceSupport }

def backend (o : Options) (config : Config) (files : FileTree) : Except RunFault Backend :=
  match o.replay with
  | none => .ok config.compiler.backend
  | some path =>
    ((files.readText path).mapError RunFault.replay).map fun report =>
      .replay (({} : Replay).setFallback report)

def mode (o : Options) : Mode := if o.json then .json else .text

end Options

def initialState (config : Config) (compiler : Backend) (files : FileTree) (now : Timestamp) :
    State :=
  { registry := { settings := config.settings, workspaceSupport := config.workspaceSupport }
    compiler := compiler
    files := files
    now := now }

/-- The state with the first workspaces registered, if files are routed to workspaces. -/
def openWorkspaces (s : State) (config : Config) : State :=
  if config.workspaceSupport then (s.performAndDrain (.create config.workspaces)).1 else s

/-! ## Files that are looked at -/

/-- The files that are read before the configuration is known. -/
def Options.filesRead (o : Options) : List Path :=
  o.config.getD ⟨Config.fileName⟩ :: o.replay.toList

def Command.paths : Command → List Path
  | .resolve paths => paths
  | .symbols path _ | .diagnostics path => [path]
  | .contexts | .checkCompiler => []

/-- The paths that a workspace leads to: its folder, the files that can be its main file, and the
folder that holds the main file. -/
def workspacePaths (d : Workspace.Descriptor) : List Path :=
  let configured := d.mainFile.toList.map d.root.joinText
  d.root :: (Workspace.mainFileCandidates d.root).map d.root.joinText ++
    configured.filterMap Path.parent?

/-- The files and folders that a request leads to once the configuration is known. -/
def Request.pathsSeen (r : Request) (config : Config) (files : FileTree) : List Path :=
  let named := r.command.paths.map (Path.absolute files.workingDirectory)
  config.compiler.directory :: config.compiler.executablePath ::
    config.workspaces.flatMap workspacePaths ++ named.filterMap Path.parent?

/-! ## Asking the state -/

def resolveOwner (s : State) (path : Path) : State × Resolution :=
  match s.performAndDrain (.resolve path) with
  | (after, some (.owner key)) => (after, ⟨path, key⟩)
  | (after, _) => (after, ⟨path, path⟩)

def resolveOwners (s : State) : List Path → State × List Resolution
  | [] => (s, [])
  | path :: rest =>
    let (after, first) := resolveOwner s path
    let (last, more) := resolveOwners after rest
    (last, first :: more)

/-- The context that owns a path, with findings.  The context of a single script is compiled now;
that of a workspace was when it was registered. -/
def parsedContext? (s : State) (path : Path) : Option Context :=
  match s.performAndDrain (.get path true) with
  | (after, some (.context (some id))) =>
    let begun := if after.registry.isWorkspace id then after else after.run id
    (begun.performAndDrain (.wait id)).1.registry.context? id
  | _ => none

/-! ## Commands -/

def compilerText (mode : Mode) (screen : Screen) (executable : Path) (options : List String) :
    String :=
  match mode with
  | .json =>
    Output.document <| .object
      [("executable", Report.pathValue executable), ("options", .array (options.map .string))]
  | .text =>
    Output.ofLines
      [screen.paint .green "Compiler found:" ++ " " ++ executable.text,
        "  options: " ++ " ".intercalate options]

def locateCompiler (config : Config) (mode : Mode) (around : Surroundings) :
    Except RunFault String := do
  let executable ← (config.compiler.validate around.files).mapError .compiler
  return compilerText mode around.screen executable config.compiler.effectiveOptions

def contextOf (s : State) (path : Path) : Except RunFault Context := do
  let path ← filePath s.files path
  match parsedContext? s path with
  | some c => return c
  | none => throw (.noContext path)

/-- Answers a command from a state in which the first workspaces are registered. -/
def Command.answer (c : Command) (s : State) (config : Config) (mode : Mode)
    (around : Surroundings) : Except RunFault String :=
  match c with
  | .checkCompiler => locateCompiler config mode around
  | .contexts =>
    .ok (Output.contexts mode around.screen (s.registry.contexts.map Context.status))
  | .resolve paths => do
    let paths ← paths.mapM (filePath s.files)
    return Output.resolutions mode around.screen (resolveOwners s paths).2
  | .symbols path only => do
    let context ← contextOf s path
    return Output.symbols mode around.screen context.root context.symbols only
  | .diagnostics path => do
    let context ← contextOf s path
    return Output.diagnostics mode around.screen context.root context.diagnostics

/-- Runs what a command line asks for; gives what is printed.  The compiler is looked for without
anything being registered. -/
def Request.run (r : Request) (around : Surroundings) : Except RunFault String := do
  let config ← r.options.loadConfig around.files
  if r.command = .checkCompiler then locateCompiler config r.options.mode around
  else
    let compiler ← r.options.backend config around.files
    let start := initialState config compiler around.files around.now
    r.command.answer (openWorkspaces start config) config r.options.mode around

end PawnQuery.CommandLine
