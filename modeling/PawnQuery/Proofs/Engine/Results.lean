import PawnQuery.Proofs.Engine.Change

/-!
# What events do to the results of a context

The results of a context are its tables, the number of its publications and the time of the last
one.  An invocation that ends with a reply replaces them, and setting the main file of a workspace
anew takes away the symbols.  No other event touches them.
-/

namespace PawnQuery

open PawnQuery.Compiler (Reply)
open PawnQuery.Symbols (SymbolTable DiagnosticLog Findings)

namespace Context

/-- What a context shows of the invocations so far. -/
structure Results where
  symbols : SymbolTable := {}
  diagnostics : DiagnosticLog := {}
  completedRuns : Nat := 0
  lastCompleted : Option Timestamp := none
deriving DecidableEq

def results (c : Context) : Results :=
  ⟨c.symbols, c.diagnostics, c.completedRuns, c.lastCompleted⟩

def Results.publish (r : Results) (found : Findings) (now : Timestamp) : Results :=
  ⟨found.symbols, found.diagnostics, r.completedRuns + 1, some now⟩

def Results.clear (r : Results) : Results := { r with symbols := {} }

theorem IsFresh.results {c : Context} (fresh : c.IsFresh) : c.results = {} := by
  obtain equal | equal := fresh <;> rw [equal] <;> rfl

/-- Two changes touch what is shown: a publication, and setting a main file anew. -/
theorem results_apply (c : Context) (change : Change) :
    (c.apply change).results =
      match change with
      | .finish (some reply) now => c.results.publish (c.collect reply.output) now
      | .setMainFile _ true => if c.isWorkspace then c.results.clear else c.results
      | _ => c.results := by
  cases change with
  | begin =>
    obtain equal | ⟨_, _, _, equal⟩ := c.begin_cases <;> simp [apply, equal, results]
  | enqueue waiter =>
    obtain ⟨_, equal⟩ | ⟨_, equal⟩ := c.enqueue_cases waiter <;> simp [apply, equal, results]
  | finish reply now =>
    cases reply with
    | none => rfl
    | some reply =>
      simp only [apply, finish, Option.map_some, results, Results.publish]
  | setMainFile file reparse =>
    cases reparse <;> cases kind : c.isWorkspace <;>
      simp [apply, setMainFile, kind, results, Results.clear]

end Context

namespace Engine.State

/-- The reply that an invocation of a context publishes with an event. -/
def publishedBy (id : ContextId) (s : State) (e : Event) : List Reply :=
  match s.contextChange? e id with
  | some (.finish (some reply) _) => [reply]
  | _ => []

/-- The event sets a main file anew, so that the symbols of the context are gone. -/
def clears (id : ContextId) (s : State) (e : Event) : Bool :=
  match s.contextChange? e id with
  | some (.setMainFile _ true) => s.registry.isWorkspace id
  | _ => false

variable {s : State} {id : ContextId}

theorem publishedBy_of_collect {task : TaskId} {reply : Reply}
    (activity : s.activity? task = some (.collect id reply)) :
    publishedBy id s (.advance task) = [reply] := by
  simp [publishedBy, contextChange?_of_touches (.collect activity)]

theorem publishedBy_cases (id : ContextId) (s : State) (e : Event) :
    (∃ task reply, e = .advance task ∧ s.activity? task = some (.collect id reply) ∧
        publishedBy id s e = [reply]) ∨
      publishedBy id s e = [] ∧
        ∀ reply now, s.contextChange? e id ≠ some (.finish (some reply) now) := by
  cases made : s.contextChange? e id with
  | none => exact .inr ⟨by simp [publishedBy, made], by simp⟩
  | some change =>
    cases touches_of_contextChange? made with
    | collect activity => exact .inl ⟨_, _, rfl, activity, publishedBy_of_collect activity⟩
    | run | assign | request | assignNext | call | giveUp =>
      exact .inr ⟨by simp [publishedBy, made], by simp⟩

theorem results_after {c : Context} (found : s.registry.context? id = some c) (e : Event) :
    ∃ later, (s.after e).registry.context? id = some later ∧
      ((∃ task reply, e = .advance task ∧ s.activity? task = some (.collect id reply) ∧
          publishedBy id s e = [reply] ∧
          later.results = c.results.publish (c.collect reply.output) s.now) ∨
        publishedBy id s e = [] ∧
          later.results = if clears id s e = true then c.results.clear else c.results) := by
  refine ⟨_, context?_after found e, ?_⟩
  obtain ⟨task, reply, rfl, activity, published⟩ | ⟨nothing, other⟩ := publishedBy_cases id s e
  · refine .inl ⟨task, reply, rfl, activity, published, ?_⟩
    rw [contextChange?_of_touches (.collect activity), Option.elim_some, Context.results_apply]
  · refine .inr ⟨nothing, ?_⟩
    cases made : s.contextChange? e id with
    | none => simp [clears, made]
    | some change =>
      rw [Option.elim_some, Context.results_apply]
      cases change with
      | begin | enqueue => simp [clears, made]
      | finish reply now =>
        cases reply with
        | none => simp [clears, made]
        | some reply => exact absurd made (other reply now)
      | setMainFile file reparse =>
        cases reparse <;> simp [clears, made, Registry.isWorkspace, found]

end Engine.State

end PawnQuery
