import PawnQuery.Proofs.Engine.Course
import PawnQuery.Proofs.Engine.Publication
import PawnQuery.Proofs.Registry.Strays

/-!
# The routine of a registry

A registry that is left to itself opens the first workspaces and then does what it is asked for;
nobody sets a main file or runs an invocation behind its back, nothing is dropped, and the compiler
takes on whatever is handed to it.  Then the registry listens to every context for which an
invocation runs or is about to: each invocation is followed by a sweep.
-/

namespace PawnQuery

namespace Registry

/-- The context is a workspace's, and the registry is told of what it publishes. -/
def listensTo (r : Registry) (id : ContextId) : Bool :=
  (r.context? id).any fun c => c.isWorkspace && c.listener == .registry

theorem listensTo_apply {r : Registry} {id : ContextId} (listens : r.listensTo id = true)
    (change : Change) : (r.apply change).listensTo id = true := by
  unfold listensTo at listens ⊢
  obtain ⟨c, found, listens⟩ := (Option.any_eq_true _ _).mp listens
  rw [context?_apply found change, Option.any_some]
  cases change.on? id with
  | none => exact listens
  | some step => simpa using listens

theorem listensTo_register (r : Registry) (d : Workspace.Descriptor) (files : Files.FileTree) :
    (r.register d files).1.listensTo (r.register d files).2.context = true := by
  simp [listensTo, register, addContext, context?, Context.workspace]

/-- Nothing but dropping everything makes a registry forget that its first workspaces have been
registered, and nothing at all changes whether files are routed. -/
theorem flags_apply (r : Registry) (change : Change) :
    (r.apply change).workspaceSupport = r.workspaceSupport ∧
      (change ≠ .tables .clear → r.initialized = true → (r.apply change).initialized = true) := by
  cases change with
  | context changed step =>
    simp only [apply, changeContext]
    split <;> exact ⟨rfl, fun _ initialized => initialized⟩
  | tables change =>
    cases change with
    | register d files | forget key => exact ⟨rfl, fun _ initialized => initialized⟩
    | markInitialized => exact ⟨rfl, fun _ _ => rfl⟩
    | detach roots =>
      simp only [apply, applyTables, detach_eq]
      exact ⟨trivial, fun _ initialized => initialized⟩
    | fetch key create =>
      simp only [apply, applyTables]
      obtain ⟨id, _, equal⟩ | ⟨_, _, equal⟩ | ⟨_, _, equal⟩ := r.obtain_cases key create <;>
        rw [equal] <;> exact ⟨rfl, fun _ initialized => initialized⟩
    | subsume key owner =>
      simp only [apply, applyTables]
      obtain ⟨_, _, equal⟩ | ⟨_, equal⟩ := r.subsume_cases key owner <;> rw [equal] <;>
        exact ⟨rfl, fun _ initialized => initialized⟩
    | clear => exact ⟨rfl, fun differs => absurd rfl differs⟩

end Registry

namespace Engine

open PawnQuery.Registry (Candidate Assignment)
open PawnQuery.Workspace (Descriptor)

/-- The contexts for which a task carries an invocation or is about to ask for one. -/
def Activity.engages : Activity → List ContextId
  | .launch id _ | .giveUp id | .collect id _ | .tell id => [id]
  | .register _ made => made.map (·.context)
  | .assign assignments _ => assignments.map (·.context)
  | .request id assignments _ => id :: assignments.map (·.context)
  | _ => []

namespace State

/-- The event is part of the routine: operations are asked for once the first workspaces are
registered, contexts are not touched from outside, and nothing is dropped. -/
def Routine (s : State) : Event → Prop
  | .perform o => s.registry.initialized = true ∧ o ≠ .shutdown
  | .run _ | .assign _ _ _ | .cancel _ => False
  | .advance _ | .instruct _ | .release _ | .surround _ _ => True

instance (s : State) : (e : Event) → Decidable (s.Routine e)
  | .perform o => inferInstanceAs (Decidable (s.registry.initialized = true ∧ o ≠ .shutdown))
  | .run _ | .assign _ _ _ | .cancel _ => .isFalse id
  | .advance _ | .instruct _ | .release _ | .surround _ _ => .isTrue trivial

/-- What the routine keeps. -/
structure Regular (s : State) : Prop where
  support : s.registry.workspaceSupport = true
  listening : ∀ task a, s.activity? task = some a → ∀ id ∈ a.engages, s.registry.listensTo id = true
  willing : ∀ task id, s.activity? task ≠ some (.giveUp id)
  staying : ∀ task, s.activity? task ≠ some .clear
  opening : s.registry.initialized = true ∨
    (∀ task a, s.activity? task = some a → ∃ todo made, a = .register todo made) ∧
      ∀ e ∈ s.registry.registered.entries, s.registry.isWorkspace e.2 = true

/-! ## One event of the routine -/

variable {s : State} {e : Event}

theorem listensTo_after {id : ContextId} (listens : s.registry.listensTo id = true) (e : Event) :
    (s.after e).registry.listensTo id = true := by
  rw [registry_after]
  cases s.change? e with
  | none => exact listens
  | some change => exact Registry.listensTo_apply listens change

/-- In the routine nobody asks for an invocation but the task that has set the main file. -/
theorem Routine.request_of_begunBy (routine : s.Routine e) {id : ContextId} {carrier : TaskId}
    (begins : begunBy id s e = [carrier]) :
    ∃ task assignments added, s.activity? task = some (.request id assignments added) := by
  unfold begunBy at begins
  split at begins
  next condition =>
    cases touches_of_contextChange? condition.1 with
    | run => cases routine
    | request activity => exact ⟨_, _, _, activity⟩
  next => cases begins

theorem Regular.listening_after (regular : s.Regular) (routine : s.Routine e) {task : TaskId}
    {b : Activity} (course : Course s e task b) :
    ∀ id ∈ b.engages, (s.after e).registry.listensTo id = true := by
  cases course with
  | stays _ activity =>
    exact fun id member => listensTo_after (regular.listening task b activity id member) e
  | @moves _ a _ activity goes =>
    have before : ∀ id ∈ a.engages, (s.after (.advance task)).registry.listensTo id = true :=
      fun id member => listensTo_after (regular.listening task a activity id member) _
    have made : ∀ d, (s.changeBy? task a = some (.tables (.register d s.files))) →
        (s.after (.advance task)).registry.listensTo (s.registry.register d s.files).2.context =
          true := by
      intro d change
      rw [registry_after, change?, activity, Option.bind_some, change]
      exact s.registry.listensTo_register d s.files
    cases follows_turn goes with
    | refused | answered | published | registered | assigns => exact before
    | requests => exact fun id member => before id (List.mem_cons_of_mem _ member)
    | @registers d todo done =>
      intro id member
      simp only [Activity.engages, List.map_append, List.map_cons, List.map_nil, List.mem_append,
        List.mem_singleton] at member
      obtain old | rfl := member
      · exact before id old
      · exact made d rfl
    | @enrolls d added =>
      intro id member
      simp only [Activity.engages, List.map_cons, List.map_nil, List.mem_singleton] at member
      rw [member]
      exact made d rfl
    | told | detached | assigned | waits | opens | alone | enters | passes | searches | awaits
    | skips | unowned | includes | lacks | sweeps | swept =>
      intro id member
      cases member
  | @performs o =>
    intro id member
    cases o <;> cases member
  | begins begins =>
    obtain ⟨asking, assignments, added, activity⟩ := routine.request_of_begunBy begins
    intro id member
    rw [List.mem_singleton.mp member]
    exact listensTo_after (regular.listening asking _ activity _ List.mem_cons_self) e

theorem Regular.willing_after (regular : s.Regular) (accepts : s.Accepts e) {task : TaskId}
    {id : ContextId} : ¬ Course s e task (.giveUp id) := by
  intro course
  generalize lost : Activity.giveUp id = b at course
  cases course with
  | stays _ activity => exact regular.willing task id (by rw [activity, lost])
  | moves activity goes =>
    subst lost
    cases follows_turn goes with
    | refused spawned =>
      simp [Accepts, activity, takesOn, spawned, Except.isOk, Except.toBool] at accepts
  | @performs o => cases o <;> cases lost
  | begins => cases lost

theorem Regular.staying_after (regular : s.Regular) (routine : s.Routine e) {task : TaskId} :
    ¬ Course s e task .clear := by
  intro course
  generalize lost : Activity.clear = b at course
  cases course with
  | stays _ activity => exact regular.staying task (by rw [activity, lost])
  | moves activity goes =>
    subst lost
    cases follows_turn goes
  | @performs o =>
    cases o with
    | shutdown => exact routine.2 rfl
    | _ => cases lost
  | begins => cases lost

theorem change?_clear (made : s.change? e = some (.tables .clear)) :
    ∃ task, s.activity? task = some .clear := by
  cases e with
  | advance task =>
    simp only [change?] at made
    obtain ⟨a, activity, made⟩ := Option.bind_eq_some_iff.mp made
    refine ⟨task, ?_⟩
    cases a with
    | clear => exact activity
    | settle path goal owner => cases goal <;> simp [changeBy?, Goal.change?] at made
    | register todo made' => cases todo <;> simp [changeBy?] at made
    | enroll added => cases added <;> simp [changeBy?, Activity.awaited?] at made
    | assign assignments added =>
      cases assignments <;> simp [changeBy?, Activity.awaited?] at made
    | _ => simp [changeBy?] at made
  | run _ | assign _ _ _ => simp [change?] at made
  | perform _ | cancel _ | instruct _ | release _ | surround _ _ => cases made

/-- While the first workspaces are registered one after the other, nothing else goes on. -/
theorem opens_after (roster : s.Roster) (routine : s.Routine e)
    (starting : s.registry.initialized = false)
    (still : (s.after e).registry.initialized = false)
    (registering : ∀ task a, s.activity? task = some a → ∃ todo made, a = .register todo made)
    (workspaces : ∀ entry ∈ s.registry.registered.entries,
      s.registry.isWorkspace entry.2 = true) :
    (∀ task a, (s.after e).activity? task = some a → ∃ todo made, a = .register todo made) ∧
      ∀ entry ∈ (s.after e).registry.registered.entries,
        (s.after e).registry.isWorkspace entry.2 = true := by
  have unmarked : ∀ task made, e = .advance task → s.activity? task ≠ some (.register [] made) := by
    rintro task made rfl activity
    rw [registry_after, change?, activity] at still
    cases still
  constructor
  · intro task b activity
    cases course roster activity with
    | stays _ before => exact registering task b before
    | moves before goes =>
      obtain ⟨todo, made, rfl⟩ := registering task _ before
      cases follows_turn goes with
      | registers => exact ⟨_, _, rfl⟩
      | registered => exact absurd before (unmarked task made rfl)
    | performs =>
      rw [routine.1] at starting
      cases starting
    | begins begins =>
      obtain ⟨asking, _, _, asks⟩ := routine.request_of_begunBy begins
      obtain ⟨_, _, equal⟩ := registering asking _ asks
      cases equal
  · rw [registry_after]
    cases made : s.change? e with
    | none => exact workspaces
    | some change =>
      have kept : ∀ entry ∈ s.registry.registered.entries,
          (s.registry.apply change).isWorkspace entry.2 = true := fun entry member =>
        Registry.isWorkspace_apply (workspaces entry member) change
      cases e with
      | advance task =>
        simp only [change?] at made
        obtain ⟨a, activity, made⟩ := Option.bind_eq_some_iff.mp made
        obtain ⟨todo, done, rfl⟩ := registering task a activity
        cases todo with
        | nil => exact absurd activity (unmarked task done rfl)
        | cons d todo =>
          cases made
          intro entry member
          obtain new | old := Path.Map.mem_insert member
          · rw [new]
            exact s.registry.isWorkspace_register d s.files
          · exact kept entry old
      | run _ | assign _ _ _ => cases routine
      | perform _ | cancel _ | instruct _ | release _ | surround _ _ => cases made

theorem Regular.opening_after (regular : s.Regular) (roster : s.Roster) (routine : s.Routine e) :
    (s.after e).registry.initialized = true ∨
      (∀ task a, (s.after e).activity? task = some a → ∃ todo made, a = .register todo made) ∧
        ∀ entry ∈ (s.after e).registry.registered.entries,
          (s.after e).registry.isWorkspace entry.2 = true := by
  cases initialized : s.registry.initialized with
  | true =>
    left
    rw [registry_after]
    cases made : s.change? e with
    | none => exact initialized
    | some change =>
      refine (s.registry.flags_apply change).2 ?_ initialized
      rintro rfl
      obtain ⟨task, activity⟩ := change?_clear made
      exact regular.staying task activity
  | false =>
    obtain marked | ⟨registering, workspaces⟩ := regular.opening
    · rw [initialized] at marked
      cases marked
    · cases still : (s.after e).registry.initialized with
      | true => exact .inl rfl
      | false => exact .inr (opens_after roster routine initialized still registering workspaces)

theorem Regular.after (regular : s.Regular) (roster : s.Roster) (routine : s.Routine e)
    (accepts : s.Accepts e) : (s.after e).Regular := by
  refine ⟨?_, ?_, ?_, ?_, regular.opening_after roster routine⟩
  · rw [registry_after]
    cases s.change? e with
    | none => exact regular.support
    | some change => exact (s.registry.flags_apply change).1.trans regular.support
  · exact fun task b activity => regular.listening_after routine (course roster activity)
  · exact fun task id activity => regular.willing_after accepts (course roster activity)
  · exact fun task activity => regular.staying_after routine (course roster activity)

end State

end Engine

end PawnQuery
