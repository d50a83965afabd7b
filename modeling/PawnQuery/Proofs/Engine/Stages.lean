import PawnQuery.Proofs.Engine.Course
import PawnQuery.Proofs.Engine.Shown

/-!
# Stages of an invocation

The task that carries an invocation goes through a few stages: it is to hand the invocation over, it
has been refused or is to collect the answer, and it is to tell the listener in the end.  Nobody can
drop it on the way.  So of the tasks that have come to a stage in a run those are still there that
have not left it again, and this is how they are counted.
-/

namespace PawnQuery.Engine

open PawnQuery.Compiler (Invocation Reply SpawnFault)

/-- The context whose invocation is handed to the compiler in the next section. -/
def Activity.launched? : Activity → Option ContextId
  | .launch id _ => some id
  | _ => none

def Activity.refused? : Activity → Option ContextId
  | .giveUp id => some id
  | _ => none

def Activity.collected? : Activity → Option ContextId
  | .collect id _ => some id
  | _ => none

def Activity.told? : Activity → Option ContextId
  | .tell id => some id
  | _ => none

namespace State

/-- The task that leaves a stage for a context with an event. -/
def leftBy (stage : Activity → Option ContextId) (id : ContextId) (s : State) :
    Event → List TaskId
  | .advance task => if (s.activity? task).bind stage = some id then [task] else []
  | _ => []

/-- The tasks that have come to a stage and those that have left it, set against the tasks that are
there. -/
structure Passage (s : State) (stage : Activity → Option ContextId) (id : ContextId)
    (entered left : List TaskId) : Prop where
  present : ∀ task, (∃ a, s.activity? task = some a ∧ stage a = some id) ↔
    task ∈ entered ∧ task ∉ left
  enteredOnce : entered.Nodup
  leftOnce : left.Nodup
  within : left ⊆ entered

variable {s : State} {stage : Activity → Option ContextId} {id : ContextId} {e : Event}
  {es : List Event} {task : TaskId}

/-! ## The tasks at a stage -/

theorem nodup_tasksAt (roster : s.Roster) (stage : Activity → Option ContextId) (id : ContextId) :
    (s.tasksAt stage id).Nodup :=
  roster.distinct.sublist (List.filter_sublist.map _)

theorem mem_leftBy :
    task ∈ leftBy stage id s e ↔
      e = .advance task ∧ ∃ a, s.activity? task = some a ∧ stage a = some id := by
  cases e with
  | advance moved =>
    rw [← Option.bind_eq_some_iff]
    simp only [leftBy, Event.advance.injEq]
    split
    next there =>
      rw [List.mem_singleton]
      constructor
      · rintro rfl
        exact ⟨rfl, there⟩
      · exact fun both => both.1.symm
    next elsewhere =>
      refine iff_of_false (List.not_mem_nil) ?_
      rintro ⟨rfl, there⟩
      exact elsewhere there
  | _ => exact iff_of_false List.not_mem_nil nofun

theorem nodup_leftBy (stage : Activity → Option ContextId) (id : ContextId) (s : State)
    (e : Event) : (leftBy stage id s e).Nodup := by
  unfold leftBy
  split
  · split
    · exact List.nodup_singleton _
    · exact List.nodup_nil
  · exact List.nodup_nil

/-- A task that works in the background stays where it is until its own section. -/
theorem activity?_after_of_background (roster : s.Roster) (allowed : s.Allows e) {a : Activity}
    (activity : s.activity? task = some a) (background : a.isBackground = true)
    (elsewhere : e ≠ .advance task) : (s.after e).activity? task = some a := by
  have notDropped : e ≠ .cancel task := by
    rintro rfl
    obtain ⟨b, other, waits⟩ := (Option.any_eq_true _ _).mp allowed
    rw [activity] at other
    cases other
    simp [background] at waits
  rw [activity?_after (roster.number_lt activity) elsewhere notDropped, activity]

/-! ## Passages -/

namespace Passage

variable {entered left arrivals : List TaskId}

theorem length (passage : s.Passage stage id entered left) (roster : s.Roster) :
    left.length + (s.tasksAt stage id).length = entered.length := by
  have apart : (left ++ s.tasksAt stage id).Nodup := by
    refine List.nodup_append.mpr ⟨passage.leftOnce, nodup_tasksAt roster stage id, ?_⟩
    rintro task gone other there rfl
    exact ((passage.present task).mp ((mem_tasksAt roster).mp there)).2 gone
  have together : (left ++ s.tasksAt stage id).Perm entered := by
    refine (List.perm_ext_iff_of_nodup apart passage.enteredOnce).mpr fun task => ?_
    rw [List.mem_append, mem_tasksAt roster, passage.present task]
    constructor
    · rintro (gone | ⟨came, -⟩)
      · exact passage.within gone
      · exact came
    · intro came
      by_cases gone : task ∈ left
      · exact .inl gone
      · exact .inr ⟨came, gone⟩
  rw [← List.length_append, together.length_eq]

theorem of_tasks_eq_nil (nobody : s.tasks = []) : s.Passage stage id [] [] := by
  refine ⟨fun task => iff_of_false ?_ (fun both => List.not_mem_nil both.1), List.nodup_nil,
    List.nodup_nil, List.Subset.refl _⟩
  rintro ⟨a, activity, -⟩
  simp [activity?, nobody] at activity

/-- A stage in the background is left by a section of the task itself alone.  So it is enough to
know with which event a task can come to it. -/
theorem after (passage : s.Passage stage id entered left) (roster : s.Roster)
    (allowed : s.Allows e) (background : ∀ a, stage a = some id → a.isBackground = true)
    (once : (entered ++ arrivals).Nodup)
    (arrive : ∀ task ∈ arrivals, ∃ a, (s.after e).activity? task = some a ∧ stage a = some id)
    (come : ∀ task a, Course s e task a → stage a = some id →
      s.activity? task = some a ∧ e ≠ .advance task ∨ task ∈ arrivals) :
    (s.after e).Passage stage id (entered ++ arrivals) (left ++ leftBy stage id s e) := by
  have new : ∀ task ∈ arrivals, task ∉ entered := fun task arrives before =>
    (List.nodup_append.mp once).2.2 task before task arrives rfl
  have leaves : ∀ task ∈ leftBy stage id s e, task ∈ entered ∧ task ∉ left := fun task leaves =>
    (passage.present task).mp (mem_leftBy.mp leaves).2
  refine ⟨fun task => ?_, once, ?_, ?_⟩
  · rw [List.mem_append, List.mem_append, not_or]
    constructor
    · rintro ⟨a, activity, there⟩
      obtain ⟨before, elsewhere⟩ | arrives := come task a (course roster activity) there
      · obtain ⟨came, stayed⟩ := (passage.present task).mp ⟨a, before, there⟩
        exact ⟨.inl came, stayed, fun leaves => elsewhere (mem_leftBy.mp leaves).1⟩
      · exact ⟨.inr arrives, fun gone => new task arrives (passage.within gone),
          fun gone => new task arrives (leaves task gone).1⟩
    · rintro ⟨came | arrives, stayed, stays⟩
      · obtain ⟨a, before, there⟩ := (passage.present task).mpr ⟨came, stayed⟩
        have elsewhere : e ≠ .advance task := fun moved =>
          stays (mem_leftBy.mpr ⟨moved, a, before, there⟩)
        have still := activity?_after_of_background roster allowed before (background a there)
          elsewhere
        exact ⟨a, still, there⟩
      · exact arrive task arrives
  · refine List.nodup_append.mpr ⟨passage.leftOnce, nodup_leftBy stage id s e, ?_⟩
    rintro task gone other now rfl
    exact (leaves task now).2 gone
  · intro task gone
    obtain before | now := List.mem_append.mp gone
    · exact List.mem_append_left _ (passage.within before)
    · exact List.mem_append_left _ (leaves task now).1

/-- A task comes to hand over an invocation just when the invocation begins. -/
theorem after_begun (passage : s.Passage Activity.launched? id entered left) (roster : s.Roster)
    (allowed : s.Allows e) (once : (entered ++ begunBy id s e).Nodup) :
    (s.after e).Passage Activity.launched? id (entered ++ begunBy id s e)
      (left ++ leftBy Activity.launched? id s e) := by
  refine passage.after roster allowed ?_ once ?_ ?_
  · intro a there
    cases a <;> first | rfl | cases there
  · intro task begins
    have alone : begunBy id s e = [task] := by
      unfold begunBy at begins ⊢
      split at begins
      next condition => rw [if_pos condition, List.mem_singleton.mp begins]
      next => cases begins
    obtain ⟨_, invocation, -, -, -, -, activity⟩ := activity?_of_begunBy roster alone
    exact ⟨_, activity, rfl⟩
  · intro task a course there
    cases course with
    | stays elsewhere activity => exact .inl ⟨activity, elsewhere⟩
    | @moves _ b _ _ goes =>
      have follows := follows_turn goes
      cases follows <;> cases there
    | @performs operation => cases operation <;> cases there
    | begins begins =>
      cases there
      rw [begins]
      exact .inr (List.mem_singleton_self _)

/-- A task comes to tell the listener just when it has published. -/
theorem after_published (passage : s.Passage Activity.told? id entered left) (roster : s.Roster)
    (allowed : s.Allows e) (once : (entered ++ leftBy Activity.collected? id s e).Nodup) :
    (s.after e).Passage Activity.told? id (entered ++ leftBy Activity.collected? id s e)
      (left ++ leftBy Activity.told? id s e) := by
  refine passage.after roster allowed ?_ once ?_ ?_
  · intro a there
    cases a <;> first | rfl | cases there
  · intro task publishes
    obtain ⟨rfl, a, activity, there⟩ := mem_leftBy.mp publishes
    cases a with
    | collect published reply =>
      cases there
      refine ⟨.tell id, ?_, rfl⟩
      rw [State.after, activity?_advance activity (roster.number_lt activity), if_pos rfl, turn,
        next_publish]
      rfl
    | _ => cases there
  · intro task a course there
    cases course with
    | stays elsewhere activity => exact .inl ⟨activity, elsewhere⟩
    | @moves _ b _ activity goes =>
      have follows := follows_turn goes
      cases follows with
      | published =>
        cases there
        exact .inr (mem_leftBy.mpr ⟨rfl, _, activity, rfl⟩)
      | _ => cases there
    | @performs operation => cases operation <;> cases there
    | begins begins => cases there

end Passage

/-! ## Whole runs -/

/-- What is recorded in two parts with every event is recorded in the same two parts by a run. -/
theorem perm_history {α : Type} {entry first second : State → Event → List α}
    (parts : ∀ s e, entry s e = first s e ++ second s e) (s : State) (es : List Event) :
    (s.history entry es).Perm (s.history first es ++ s.history second es) := by
  induction es generalizing s with
  | nil => exact .nil
  | cons e es inductionHypothesis =>
    simp only [history, parts]
    refine ((inductionHypothesis (s.after e)).append_left _).trans ?_
    -- What the event adds to the second part changes places with the first part of what follows.
    simp only [List.append_assoc]
    refine List.Perm.append_left _ ?_
    rw [← List.append_assoc, ← List.append_assoc]
    exact List.perm_append_comm.append_right _

/-- An invocation ends by being published, or because it was refused. -/
theorem endedBy_eq (id : ContextId) (s : State) (e : Event) :
    endedBy id s e = leftBy Activity.collected? id s e ++ leftBy Activity.refused? id s e := by
  cases e with
  | advance task =>
    cases activity : s.activity? task with
    | none => simp [endedBy, leftBy, activity]
    | some a => cases a <;> simp [endedBy, leftBy, activity, Activity.ended?, Activity.collected?,
        Activity.refused?]
  | _ => rfl

theorem Accounted.passage {begun ended : List TaskId} (account : s.Accounted id begun ended)
    (roster : s.Roster) : s.Passage Activity.invocation? id begun ended := by
  refine ⟨fun task => ?_, account.begunOnce, account.endedOnce, account.within⟩
  rw [← mem_invocations roster, account.running]
  simp

theorem Steady.progress_eq_length (steady : s.Steady) {c : Context}
    (found : s.registry.context? id = some c) : c.progress = (s.invocations id).length := by
  obtain ⟨idle, -, nobody⟩ | ⟨busy, task, alone⟩ := steady.paced id c found
  · rw [idle, nobody, List.length_nil]
  · rw [busy, alone, List.length_singleton]

theorem Initial.nodup_ended (initial : s.Initial) (possible : s.Possible es) (id : ContextId) :
    (s.history (leftBy Activity.collected? id) es ++
      s.history (leftBy Activity.refused? id) es).Nodup :=
  (perm_history (endedBy_eq id) s es).nodup_iff.mp (initial.accounted id possible).endedOnce

/-- The tasks that are to hand over an invocation have begun and have not handed it over. -/
theorem Initial.launches (initial : s.Initial) (possible : s.Possible es) (id : ContextId) :
    (s.afterAll es).Passage Activity.launched? id (s.history (begunBy id) es)
      (s.history (leftBy Activity.launched? id) es) := by
  induction es using List.reverseRecOn with
  | nil => exact .of_tasks_eq_nil initial.tasks
  | append_singleton es e inductionHypothesis =>
    obtain ⟨before, allowed, -⟩ := possible_append.mp possible
    have once := (initial.accounted id possible).begunOnce
    simp only [history_append, history, List.append_nil, afterAll_append, afterAll_cons,
      afterAll_nil] at once ⊢
    exact (inductionHypothesis before).after_begun (initial.roster.afterAll es) allowed once

/-- The tasks that are to tell the listener have published and have not told it. -/
theorem Initial.tells (initial : s.Initial) (possible : s.Possible es) (id : ContextId) :
    (s.afterAll es).Passage Activity.told? id (s.history (leftBy Activity.collected? id) es)
      (s.history (leftBy Activity.told? id) es) := by
  induction es using List.reverseRecOn with
  | nil => exact .of_tasks_eq_nil initial.tasks
  | append_singleton es e inductionHypothesis =>
    obtain ⟨before, allowed, -⟩ := possible_append.mp possible
    have once := (List.nodup_append.mp (initial.nodup_ended possible id)).1
    simp only [history_append, history, List.append_nil, afterAll_append, afterAll_cons,
      afterAll_nil] at once ⊢
    exact (inductionHypothesis before).after_published (initial.roster.afterAll es) allowed once

end State

end PawnQuery.Engine
