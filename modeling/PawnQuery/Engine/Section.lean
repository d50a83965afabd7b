import PawnQuery.Engine.State

/-!
# Sections

What one task does in one atomic section, and how the task goes on.  A section may begin other
tasks and wake some that wait; these are queued behind all that can move already.
-/

namespace PawnQuery.Engine

open PawnQuery.Compiler (Invocation Reply)
open PawnQuery.Registry (Candidate Assignment)
open PawnQuery.Workspace (Descriptor)

inductive Next where
  | ended (answer : Answer)
  | ready (activity : Activity)
  /-- Goes on once it is woken. -/
  | parked (activity : Activity)
deriving DecidableEq, Repr, Inhabited

/-- The outcome of a section. -/
structure Turn where
  state : State
  next : Next
  started : List Activity := []
  woken : List TaskId := []
deriving DecidableEq, Repr, Inhabited

namespace State

/-! ## Invocations -/

def launch (s : State) (id : ContextId) (invocation : Invocation) : Turn :=
  match s.compiler.spawn s.files invocation with
  | (compiler, .error _) => ⟨{ s with compiler := compiler }, .ready (.giveUp id), [], []⟩
  | (compiler, .ok reply) =>
    let next := Activity.collect id reply
    ⟨{ s with compiler := compiler },
      if compiler.isOpen reply.gate then .ready next else .parked next, [], []⟩

/-- Ends an invocation with its findings, or with none. -/
def publish (s : State) (id : ContextId) (reply : Option Reply) (next : Next) : Turn :=
  match s.registry.context? id with
  | none => ⟨s, next, [], []⟩
  | some c =>
    let (after, released) := c.finish (reply.map fun r => c.collect r.output) s.now
    ⟨{ s with registry := s.registry.setContext id after }, next, [], released⟩

def tell (s : State) (id : ContextId) : Turn :=
  match s.registry.context? id with
  | none => ⟨s, .ended .done, [], []⟩
  | some c =>
    if c.isWorkspace then
      match c.listener with
      | .nobody => ⟨s, .ended .done, [], []⟩
      | .registry => ⟨s, .ready .sweep, [], []⟩
      | .recorder => ⟨{ s with notified := s.notified ++ [c.root] }, .ended .done, [], []⟩
    else ⟨s, .ended .done, [], []⟩

def startInvocation (s : State) (id : ContextId) : State × List Activity :=
  match s.registry.context? id with
  | none => (s, [])
  | some c =>
    match c.begin with
    | (_, none) => (s, [])
    | (after, some invocation) =>
      ({ s with registry := s.registry.setContext id after }, [.launch id invocation])

def assignMainFile (s : State) (id : ContextId) (file : String) (reparse : Bool) : State :=
  match s.registry.context? id with
  | none => s
  | some c => { s with registry := s.registry.setContext id (c.setMainFile file reparse) }

/-! ## Workspaces -/

/-- Registers the next of the first workspaces, or marks them as registered. -/
def registerNext (s : State) (todo : List Descriptor) (made : List Assignment) : Turn :=
  match todo with
  | [] =>
    ⟨{ s with registry := s.registry.markInitialized }, .ready (.assign made []), [], []⟩
  | d :: rest =>
    let (registry, assignment) := s.registry.register d s.files
    ⟨{ s with registry := registry }, .ready (.register rest (made ++ [assignment])), [], []⟩

/-- Opens the next workspace, which gets its main file before the one after it is opened. -/
def enrollNext (s : State) (added : List Descriptor) : Turn :=
  match added with
  | [] => ⟨s, .ended .done, [], []⟩
  | d :: rest =>
    let (registry, assignment) := s.registry.register d s.files
    ⟨{ s with registry := registry }, .ready (.assign [assignment] rest), [], []⟩

def assignNext (s : State) (assignments : List Assignment) (added : List Descriptor) : Turn :=
  match assignments with
  | [] => ⟨s, .ready (.enroll added), [], []⟩
  | a :: rest =>
    ⟨s.assignMainFile a.context a.mainFile true, .ready (.request a.context rest added), [], []⟩

/-! ## Waiting -/

/-- Queues up for the end of an invocation; goes on at once if none runs. -/
def awaitContext (s : State) (task : TaskId) (id : ContextId) (next : Activity) : Turn :=
  match s.registry.context? id with
  | none => ⟨s, .ready next, [], []⟩
  | some c =>
    match c.enqueue task with
    | (_, false) => ⟨s, .ready next, [], []⟩
    | (after, true) =>
      ⟨{ s with registry := s.registry.setContext id after }, .parked next, [], []⟩

/-! ## Owners -/

def resolveOwner (s : State) (path : Path) (goal : Goal) : Turn :=
  if s.registry.workspaceSupport then
    let candidates := s.registry.candidates
    ⟨s, .ready (.enter ⟨path, goal, candidates⟩ candidates), [], []⟩
  else ⟨s, .ready (.settle path goal path), [], []⟩

def enterNext (s : State) (q : Query) (left : List Candidate) : Turn :=
  match left with
  | [] => ⟨s, .ready (.search q q.workspaces), [], []⟩
  | w :: rest =>
    let mainFile := (s.registry.context? w.context).bind Context.mainFile?
    if Registry.isEntryPoint q.path w.root mainFile then
      ⟨s, .ready (.settle q.path q.goal w.root), [], []⟩
    else ⟨s, .ready (.enter q rest), [], []⟩

/-- Waits for the next workspace if the path lies in its folder. -/
def searchNext (s : State) (task : TaskId) (q : Query) (left : List Candidate) : Turn :=
  match left with
  | [] => ⟨s, .ready (.settle q.path q.goal q.path), [], []⟩
  | w :: rest =>
    if q.path.startsWith w.root then s.awaitContext task w.context (.inspect q w rest)
    else ⟨s, .ready (.search q rest), [], []⟩

def inspectNext (s : State) (q : Query) (w : Candidate) (left : List Candidate) : Turn :=
  if (s.registry.context? w.context).any fun c => c.symbols.includes q.path then
    ⟨s, .ready (.settle q.path q.goal w.root), [], []⟩
  else ⟨s, .ready (.search q left), [], []⟩

def sweepNext : List Path → Next
  | [] => .ended .done
  | key :: rest => .ready (.resolve key (.sweep rest))

def settleOwner (s : State) (path : Path) (goal : Goal) (owner : Path) : Turn :=
  match goal with
  | .tell => ⟨s, .ended (.owner owner), [], []⟩
  | .fetch create =>
    let (registry, found) := s.registry.obtain owner create
    ⟨{ s with registry := registry }, .ended (.context found), [], []⟩
  | .remove => ⟨{ s with registry := s.registry.forget owner }, .ended .done, [], []⟩
  | .sweep rest => ⟨{ s with registry := s.registry.subsume path owner }, sweepNext rest, [], []⟩

/-! ## All activities -/

def turn (s : State) (task : TaskId) : Activity → Turn
  | .launch id invocation => s.launch id invocation
  | .giveUp id => s.publish id none (.ended .done)
  | .collect id reply => s.publish id (some reply) (.ready (.tell id))
  | .tell id => s.tell id
  | .register todo made => s.registerNext todo made
  | .detach removed added =>
    ⟨{ s with registry := s.registry.detach removed }, .ready (.enroll added), [], []⟩
  | .enroll added => s.enrollNext added
  | .assign assignments added => s.assignNext assignments added
  | .request id assignments added =>
    let (after, started) := s.startInvocation id
    ⟨after, .ready (.assign assignments added), started, []⟩
  | .clear => ⟨{ s with registry := s.registry.clear }, .ended .done, [], []⟩
  | .wait id => s.awaitContext task id .leave
  | .leave => ⟨s, .ended .done, [], []⟩
  | .resolve path goal => s.resolveOwner path goal
  | .enter q left => s.enterNext q left
  | .search q left => s.searchNext task q left
  | .inspect q w left => s.inspectNext q w left
  | .settle path goal owner => s.settleOwner path goal owner
  | .sweep => ⟨s, sweepNext s.registry.sweepKeys, [], []⟩

def follow (s : State) (task : TaskId) : Next → State
  | .ended answer => s.finish task answer
  | .ready a => s.setActivity task a
  | .parked a => (s.setActivity task a).park task

/-- The state after one section of a task. -/
def advance (s : State) (task : TaskId) : State :=
  match s.activity? task with
  | none => s.park task
  | some a =>
    let t := s.turn task a
    t.woken.foldl wake (t.started.foldl begin (t.state.follow task t.next))

end State

end PawnQuery.Engine
