import Mathlib.Logic.Relation
import PawnQuery.Engine.Schedule
import PawnQuery.Engine.Operation
import PawnQuery.Proofs.Compiler.Replay
import PawnQuery.Proofs.Registry.Change

/-!
# Runs

A run is a list of events from a state in which nothing has happened yet.  Any task that can move
may move next, and between two moves anything may be asked for from outside: the events of a run
are in no particular order.  What a run leaves behind is a function of its events, so a property
of all interleavings is a property of all lists of events.
-/

namespace PawnQuery.Engine

open PawnQuery.Compiler (GateId Instruction)
open PawnQuery.Context (Timestamp)
open PawnQuery.Files (FileTree)

/-- What may happen next: one atomic section of the program, or a change around it. -/
inductive Event where
  /-- A task goes through its next section. -/
  | advance (task : TaskId)
  | perform (operation : Operation)
  | run (context : ContextId)
  /-- A main file is set; asking for its invocation is an event of its own. -/
  | assign (context : ContextId) (file : String) (reparse : Bool)
  /-- Whoever asked for an operation drops it. -/
  | cancel (task : TaskId)
  | instruct (instruction : Instruction)
  | release (gate : GateId)
  /-- Files change and time passes. -/
  | surround (files : FileTree) (now : Timestamp)
deriving DecidableEq, Repr, Inhabited

/-- The context whose invocation an activity carries, from its start to its end. -/
def Activity.invocation? : Activity → Option ContextId
  | .launch id _ | .giveUp id | .collect id _ => some id
  | _ => none

/-- The task goes on without anybody who waits for it: an invocation and what follows from it. -/
def Activity.isBackground : Activity → Bool
  | .launch _ _ | .giveUp _ | .collect _ _ | .tell _ => true
  | _ => false

namespace State

def after (s : State) : Event → State
  | .advance task => s.advance task
  | .perform operation => (s.perform operation).1
  | .run id => s.run id
  | .assign id file reparse => s.assignMainFile id file reparse
  | .cancel task => s.cancel task
  | .instruct instruction => s.script fun r => r.follow instruction
  | .release gate => s.release gate
  | .surround files now => { s with files := files, now := now }

/-- An event can happen: only tasks in the queue move, and only what somebody waits for can be
dropped. -/
def Allows (s : State) : Event → Prop
  | .advance task => task ∈ s.queue
  | .cancel task => (s.activity? task).any (fun a => !a.isBackground) = true
  | _ => True

instance (s : State) (e : Event) : Decidable (s.Allows e) := by
  cases e <;> unfold Allows <;> infer_instance

def afterAll (s : State) (es : List Event) : State := es.foldl after s

/-- Every event of a list has a property in the state in which it happens. -/
def Always (P : State → Event → Prop) : State → List Event → Prop
  | _, [] => True
  | s, e :: es => P s e ∧ Always P (s.after e) es

/-- The events can happen one after the other. -/
def Possible (s : State) (es : List Event) : Prop := s.Always Allows es

/-- What the events of a list add to a record, each in the state in which it happens. -/
def history {α : Type} (entry : State → Event → List α) : State → List Event → List α
  | _, [] => []
  | s, e :: es => entry s e ++ history entry (s.after e) es

/-- Nothing has happened yet: there are no tasks, nothing is registered, and the contexts in store,
if there are any, are as they were made. -/
structure Initial (s : State) : Prop where
  tasks : s.tasks = []
  queue : s.queue = []
  answers : s.answers = []
  registered : s.registry.registered = {}
  workspaces : s.registry.workspaces = {}
  initialized : s.registry.initialized = false
  fresh : ∀ c ∈ s.registry.store, c.IsFresh

theorem initial_default : Initial {} :=
  ⟨rfl, rfl, rfl, rfl, rfl, rfl, fun _ member => nomatch member⟩

/-! ## Lists of events -/

@[simp] theorem afterAll_nil (s : State) : s.afterAll [] = s := rfl

@[simp] theorem afterAll_cons (s : State) (e : Event) (es : List Event) :
    s.afterAll (e :: es) = (s.after e).afterAll es := rfl

@[simp] theorem afterAll_append (s : State) (es later : List Event) :
    s.afterAll (es ++ later) = (s.afterAll es).afterAll later := List.foldl_append

@[simp] theorem always_nil (P : State → Event → Prop) (s : State) : s.Always P [] := trivial

@[simp] theorem always_cons {P : State → Event → Prop} {s : State} {e : Event}
    {es : List Event} : s.Always P (e :: es) ↔ P s e ∧ (s.after e).Always P es := Iff.rfl

@[simp] theorem always_append {P : State → Event → Prop} {s : State} {es later : List Event} :
    s.Always P (es ++ later) ↔ s.Always P es ∧ (s.afterAll es).Always P later := by
  induction es generalizing s with
  | nil => simp
  | cons e es inductionHypothesis => simp [inductionHypothesis, and_assoc]

theorem always_imp {P Q : State → Event → Prop} (implies : ∀ s e, P s e → Q s e) {s : State}
    {es : List Event} (always : s.Always P es) : s.Always Q es := by
  induction es generalizing s with
  | nil => trivial
  | cons e es inductionHypothesis => exact ⟨implies s e always.1, inductionHypothesis always.2⟩

@[simp] theorem possible_append {s : State} {es later : List Event} :
    s.Possible (es ++ later) ↔ s.Possible es ∧ (s.afterAll es).Possible later := always_append

@[simp] theorem possible_cons {s : State} {e : Event} {es : List Event} :
    s.Possible (e :: es) ↔ s.Allows e ∧ (s.after e).Possible es := Iff.rfl

@[simp] theorem history_append {α : Type} (entry : State → Event → List α) (s : State)
    (es later : List Event) :
    s.history entry (es ++ later) = s.history entry es ++ (s.afterAll es).history entry later := by
  induction es generalizing s with
  | nil => rfl
  | cons e es inductionHypothesis => simp [history, inductionHypothesis]

/-- What every event that can happen keeps holds after every run. -/
theorem afterAll_induction (Invariant : State → Prop)
    (step : ∀ s e, Invariant s → s.Allows e → Invariant (s.after e))
    {s : State} (base : Invariant s) {es : List Event} (possible : s.Possible es) :
    Invariant (s.afterAll es) := by
  -- Events are taken from the front, so the invariant has to be free to move to the next state.
  induction es generalizing s with
  | nil => exact base
  | cons e es inductionHypothesis =>
    exact inductionHypothesis (step s e base possible.1) possible.2

/-! ## What the program does is a run -/

/-- A state lies ahead if events that can happen lead there. -/
def Reaches (s later : State) : Prop := ∃ es, s.Possible es ∧ s.afterAll es = later

theorem Reaches.refl (s : State) : s.Reaches s := ⟨[], trivial, rfl⟩

theorem Reaches.trans {s middle later : State} (first : s.Reaches middle)
    (second : middle.Reaches later) : s.Reaches later := by
  obtain ⟨es, possible, rfl⟩ := first
  obtain ⟨rest, possibleRest, rfl⟩ := second
  exact ⟨es ++ rest, possible_append.mpr ⟨possible, possibleRest⟩, afterAll_append s es rest⟩

theorem Reaches.after {s : State} (e : Event) (allowed : s.Allows e) : s.Reaches (s.after e) :=
  ⟨[e], ⟨allowed, trivial⟩, rfl⟩

theorem Reaches.of_moves {s later : State} (moves : Moves s later) : s.Reaches later := by
  cases moves with
  | @advance task ready => exact .after (.advance task) ready

theorem Reaches.of_reflTransGen {s later : State} (moves : Relation.ReflTransGen Moves s later) :
    s.Reaches later := by
  induction moves with
  | refl => exact .refl s
  | tail _ moves inductionHypothesis => exact inductionHypothesis.trans (.of_moves moves)

theorem reflTransGen_drainWithin (fuel : Nat) (s : State) :
    Relation.ReflTransGen Moves s (s.drainWithin fuel) := by
  induction fuel generalizing s with
  | zero => exact .refl
  | succ fuel inductionHypothesis =>
    unfold drainWithin
    split
    · exact .refl
    · next task rest queue =>
      exact .head (moves_of_queue_eq_cons queue) (inductionHypothesis _)

/-- To perform an operation and go on until nothing can move is one run among many. -/
theorem reaches_performAndDrain (s : State) (o : Operation) :
    s.Reaches (s.performAndDrain o).1 := by
  have begun : s.Reaches (s.perform o).1 := Reaches.after (.perform o) trivial
  exact begun.trans (.of_reflTransGen (reflTransGen_drainWithin _ _))

/-- To set a main file and have it compiled are two events, with others between them or not. -/
theorem reaches_setMainFile (s : State) (id : ContextId) (file : String) (reparse : Bool) :
    s.Reaches (s.setMainFile id file reparse) := by
  unfold setMainFile
  split
  · exact .refl s
  · have assigned : s.Reaches (s.assignMainFile id file reparse) :=
      Reaches.after (.assign id file reparse) trivial
    simp only
    split
    · exact assigned.trans (Reaches.after (.run id) trivial)
    · exact assigned

/-! ## Deciding -/

def decidableAlways (P : State → Event → Prop) [∀ s e, Decidable (P s e)] :
    ∀ (s : State) (es : List Event), Decidable (s.Always P es)
  | _, [] => .isTrue trivial
  | s, e :: es =>
    have := decidableAlways P (s.after e) es
    inferInstanceAs (Decidable (P s e ∧ Always P (s.after e) es))

instance (P : State → Event → Prop) [∀ s e, Decidable (P s e)] (s : State) (es : List Event) :
    Decidable (s.Always P es) := decidableAlways P s es

instance (s : State) (es : List Event) : Decidable (s.Possible es) :=
  inferInstanceAs (Decidable (s.Always Allows es))

end State

end PawnQuery.Engine
