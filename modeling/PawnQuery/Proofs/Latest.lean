import Mathlib.Data.List.Basic

/-!
# What was given last

Steps are taken one after the other, and some of them give a value of some kind.  A part of the
state that each step either replaces by the value it gives or leaves alone is the value that was
given last.
-/

namespace PawnQuery

variable {α β γ σ : Type}

/-- This value was given last, and then came these steps. -/
structure LastGiven (given? : α → Option β) (steps : List α) (value : β) (later : List α) :
    Prop where
  given : ∃ before step, steps = before ++ step :: later ∧ given? step = some value
  last : ∀ step ∈ later, given? step = none

def lastGiven? (given? : α → Option β) (steps : List α) : Option β :=
  (steps.filterMap given?).getLast?

theorem lastGiven_or_never (given? : α → Option β) (steps : List α) :
    (∃ value later, LastGiven given? steps value later) ∨ ∀ step ∈ steps, given? step = none := by
  induction steps with
  | nil => exact .inr fun step listed => absurd listed List.not_mem_nil
  | cons first steps inductionHypothesis =>
    obtain ⟨value, later, ⟨before, step, rfl, gives⟩, last⟩ | never := inductionHypothesis
    · exact .inl ⟨value, later, ⟨first :: before, step, rfl, gives⟩, last⟩
    · cases gives : given? first with
      | none => exact .inr (List.forall_mem_cons.mpr ⟨gives, never⟩)
      | some value => exact .inl ⟨value, steps, ⟨[], first, rfl, gives⟩, never⟩

theorem lastGiven?_map (given? : α → Option β) (f : β → γ) (steps : List α) :
    lastGiven? (fun step => (given? step).map f) steps = (lastGiven? given? steps).map f := by
  rw [lastGiven?, ← List.map_filterMap, List.getLast?_map]
  rfl

/-- A part of the state that each step sets or leaves alone ends up as the last step left it. -/
theorem view?_foldl_apply {apply : σ → α → σ} (view? : σ → Option β) (given? : α → Option β)
    (sets : ∀ s step, view? (apply s step) = (given? step).or (view? s)) (steps : List α)
    (s : σ) : view? (steps.foldl apply s) = (lastGiven? given? steps).or (view? s) := by
  induction steps generalizing s with
  | nil => rfl
  | cons first steps inductionHypothesis =>
    rw [List.foldl_cons, inductionHypothesis, sets]
    cases gives : given? first with
    | none => simp [lastGiven?, gives]
    | some value => simp [lastGiven?, gives, List.getLast?_cons]

theorem view_foldl_apply {apply : σ → α → σ} (view : σ → β) (given? : α → Option β)
    (replaces : ∀ s step, view (apply s step) = (given? step).getD (view s)) (steps : List α)
    (s : σ) : view (steps.foldl apply s) = (lastGiven? given? steps).getD (view s) := by
  have sets : ∀ s step, some (view (apply s step)) = (given? step).or (some (view s)) := by
    intro s step
    rw [replaces]
    cases given? step <;> rfl
  have last := view?_foldl_apply (fun s => some (view s)) given? sets steps s
  cases given : lastGiven? given? steps <;> simpa [given] using last

end PawnQuery
