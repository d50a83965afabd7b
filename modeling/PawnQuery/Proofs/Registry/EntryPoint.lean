import PawnQuery.Proofs.Engine.Course
import PawnQuery.Proofs.Engine.Publication
import PawnQuery.Proofs.Registry.Precedence

/-!
# Entry points and what is compiled

Entry points are told by components: the folder of a workspace, and its main file joined to the
folder.  The file that an invocation of a workspace is to compile is found by the same join, so it
is an entry point whatever text the main file has.
-/

namespace PawnQuery

namespace Registry

variable {r : Registry} {path root other : Path} {id : ContextId} {c : Context}

/-- The entry points of a workspace are its folder and, if it has a main file, the main file as seen
from the folder. -/
theorem isEntryPoint_mainFile?_iff : isEntryPoint path root c.mainFile? = true ↔
    path.Same root ∨ c.mainFile ≠ "" ∧ path.Same (root.joinText c.mainFile) := by
  rw [isEntryPoint_iff]
  refine or_congr Iff.rfl ?_
  by_cases unnamed : c.mainFile = ""
  · simp [Context.mainFile?, unnamed]
  · simp [Context.mainFile?, unnamed, String.isEmpty_iff]

/-- What is to be compiled for a context is an entry point of it, however its root is spelled. -/
theorem isEntryPoint_target? (spelled : c.root.Same root) (target : c.target? = some path) :
    isEntryPoint path root c.mainFile? = true := by
  rw [isEntryPoint_iff]
  unfold Context.target? at target
  split at target
  · obtain ⟨file, named, rfl⟩ := Option.map_eq_some_iff.mp target
    exact .inr ⟨file, named, Path.joinText_congr spelled file⟩
  · cases target
    exact .inl spelled

/-- The path is an entry point of the workspace of a context, both under the context's own root and
under the folder for which a look-up goes through the workspace. -/
structure Entrance (r : Registry) (path : Path) (id : ContextId) : Prop where
  own : ∀ c, r.context? id = some c → c.isWorkspace = true →
    isEntryPoint path c.root c.mainFile? = true
  listed : ∀ w ∈ r.candidates, w.context = id → r.enters path w = true

theorem Keyed.entrance (keyed : r.Keyed) (found : r.context? id = some c)
    (target : c.target? = some path) : r.Entrance path id where
  own := by
    intro held foundHeld _
    obtain rfl : c = held := Option.some.inj (found.symm.trans foundHeld)
    exact isEntryPoint_target? (.refl _) target
  listed := by
    rintro w member rfl
    obtain ⟨held, foundHeld, spelled⟩ := keyed _ _ (mem_candidates.mp member).2
    obtain rfl : c = held := Option.some.inj (found.symm.trans foundHeld)
    unfold enters
    rw [found]
    exact isEntryPoint_target? spelled target

end Registry

namespace Engine.State

open PawnQuery.Compiler (Invocation)
open PawnQuery.Registry (isEntryPoint liesDirectlyIn)

variable {s : State} {es : List Event} {id : ContextId}

theorem entrance_of_targetOf {path : Path} (keyed : s.registry.Keyed)
    (target : s.targetOf id = some path) : s.registry.Entrance path id := by
  obtain ⟨c, found, target⟩ := Option.bind_eq_some_iff.mp target
  exact keyed.entrance found target

/-- The target of an invocation is what its context was to compile when it began. -/
theorem targetOf_of_begunBy (roster : s.Roster) {e : Event} {carrier : TaskId}
    {invocation : Invocation} (begins : begunBy id s e = [carrier])
    (activity : (s.after e).activity? carrier = some (.launch id invocation)) :
    s.targetOf id = some invocation.target := by
  obtain ⟨c, begun, found, -, equal, -, carries⟩ := activity?_of_begunBy roster begins
  rw [activity] at carries
  cases carries
  obtain nothing | ⟨target, -, targets, something⟩ := c.begin_cases
  · rw [nothing] at equal
    cases (Prod.mk.inj equal).2
  · rw [something] at equal
    obtain rfl := Option.some.inj (Prod.mk.inj equal).2
    rw [targetOf, found]
    exact targets

/-- Nothing leads to the hand-over of an invocation but its beginning. -/
theorem waiting_or_begun {e : Event} {task : TaskId} {invocation : Invocation}
    (course : Course s e task (.launch id invocation)) :
    s.activity? task = some (.launch id invocation) ∨ begunBy id s e = [task] := by
  generalize launches : Activity.launch id invocation = b at course
  cases course with
  | stays _ activity => exact .inl activity
  | moves _ goes =>
    rw [← launches] at goes
    cases follows_turn goes
  | @performs operation => cases operation <;> cases launches
  | begins begins =>
    cases launches
    exact .inr begins

/-- What waits to be handed to the compiler was begun once and has been kept since. -/
theorem begunBy_of_launch (initial : s.Initial) {task : TaskId} {invocation : Invocation}
    (waiting : (s.afterAll es).activity? task = some (.launch id invocation)) :
    ∃ before start since, es = before ++ start :: since ∧
      begunBy id (s.afterAll before) start = [task] ∧
      ((s.afterAll before).after start).activity? task = some (.launch id invocation) := by
  induction es using List.reverseRecOn with
  | nil => simp [activity?, initial.tasks] at waiting
  | append_singleton es e inductionHypothesis =>
    rw [afterAll_append, afterAll_cons, afterAll_nil] at waiting
    obtain before | begins := waiting_or_begun (course (initial.roster.afterAll es) waiting)
    · obtain ⟨earlier, start, since, rfl, begins, carries⟩ := inductionHypothesis before
      exact ⟨earlier, start, since ++ [e], by simp, begins, carries⟩
    · exact ⟨es, e, [], rfl, begins, waiting⟩

/-- A path is an entry point exactly if it is the folder or the main file joined to it, component by
component, and the test for a file directly in the folder accepts nothing else.  So the file to
compile is always an entry point: what waits to be handed to the compiler for a workspace was one
when the invocation began, and it still is one unless the main file has been set since. -/
theorem entered_at_folder_or_main_file (initial : s.Initial) (es : List Event) :
    (∀ (path root : Path) (c : Context), isEntryPoint path root c.mainFile? = true ↔
      path.Same root ∨ c.mainFile ≠ "" ∧ path.Same (root.joinText c.mainFile)) ∧
    (∀ path root file, liesDirectlyIn path root file = true → path.Same (root.joinText file)) ∧
    (∀ (c : Context) (path root : Path), c.root.Same root → c.target? = some path →
      isEntryPoint path root c.mainFile? = true) ∧
    ∀ task id invocation, (s.afterAll es).activity? task = some (.launch id invocation) →
      ∃ before start since, es = before ++ start :: since ∧
        begunBy id (s.afterAll before) start = [task] ∧
        (s.afterAll before).registry.Entrance invocation.target id ∧
        (((s.afterAll before).after start).Always (fun v e => renames id v e = false) since →
          (s.afterAll es).registry.Entrance invocation.target id) := by
  refine ⟨fun _ _ _ => Registry.isEntryPoint_mainFile?_iff,
    fun _ _ _ => Registry.same_of_liesDirectlyIn,
    fun _ _ _ => Registry.isEntryPoint_target?, fun task id invocation waiting => ?_⟩
  obtain ⟨before, start, since, rfl, begins, carries⟩ := begunBy_of_launch initial waiting
  have keyed := fun es => keyed_afterAll initial.keyed es
  have target := targetOf_of_begunBy (initial.roster.afterAll before) begins carries
  refine ⟨before, start, since, rfl, begins, entrance_of_targetOf (keyed before) target,
    fun kept => entrance_of_targetOf (keyed _) ?_⟩
  obtain ⟨c, _, found, -, -, made, -⟩ :=
    activity?_of_begunBy (initial.roster.afterAll before) begins
  have unnamed : (s.afterAll before).Always (fun v e => renames id v e = false) (start :: since) :=
    ⟨by simp [renames, made], kept⟩
  rw [afterAll_append, targetOf_afterAll found unnamed]
  exact target

/-- A workspace whose folder and main file are not spelled in the plainest way is opened, and its
first invocation begins. -/
def windingRun : List Event :=
  .perform (.create [{ root := ⟨"/w/"⟩, mainFile := some "./src//main.pwn" }]) ::
    .replicate 4 (.advance 0)

/-- The invocation begins with the last event. -/
theorem entered_windingRun :
    Initial {} ∧
      let invocation : Invocation := .ofTarget ⟨"/w/./src//main.pwn"⟩ Compiler.defaultOptions
      (afterAll {} windingRun).activity? 1 = some (.launch 0 invocation) ∧
        isEntryPoint ⟨"/w/src/main.pwn"⟩ ⟨"/w"⟩ (some "./src//main.pwn") = true ∧
        ∃ before start since, windingRun = before ++ start :: since ∧
          begunBy 0 (afterAll {} before) start = [1] ∧
          (afterAll {} before).registry.Entrance invocation.target 0 := by
  obtain ⟨-, -, -, compiled⟩ := entered_at_folder_or_main_file initial_default windingRun
  have waiting : (afterAll {} windingRun).activity? 1 = some (.launch 0
      (.ofTarget ⟨"/w/./src//main.pwn"⟩ Compiler.defaultOptions)) := by decide +kernel
  obtain ⟨before, start, since, split, begins, entrance, -⟩ := compiled 1 0 _ waiting
  exact ⟨initial_default, waiting, by decide +kernel, before, start, since, split, begins, entrance⟩

end Engine.State

end PawnQuery
