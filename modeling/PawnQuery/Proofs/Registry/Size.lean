import PawnQuery.Proofs.Path.Map
import PawnQuery.Proofs.Registry.Change

/-!
# How large the tables get

A change adds one entry to a table at most: to open a workspace adds one to both tables, to look up
a context one to the table of contexts, and every other change only takes entries away.
-/

namespace PawnQuery

namespace Path.Map

variable {α : Type}

theorem size_insert_le (m : Map α) (key : Path) (value : α) :
    (m.insert key value).size ≤ m.size + 1 := by
  unfold insert size
  generalize m.entries = entries
  induction entries with
  | nil => exact Nat.le_refl _
  | cons e rest inductionHypothesis =>
    simp only [insertEntries]
    split
    · exact Nat.le_succ _
    · exact Nat.succ_le_succ inductionHypothesis

theorem size_erase_le (m : Map α) (key : Path) : (m.erase key).size ≤ m.size :=
  List.length_filter_le _ _

end Path.Map

namespace Registry

/-- The most entries that a change adds to a table, `fetched` being those that a look-up adds. -/
def Change.entries (fetched : Nat) : Change → Nat
  | .tables (.register _ _) => 1
  | .tables (.fetch _ _) => fetched
  | _ => 0

theorem size_detach_le (r : Registry) (roots : List Path) :
    (r.detach roots).registered.size ≤ r.registered.size ∧
      (r.detach roots).workspaces.size ≤ r.workspaces.size := by
  simp only [detach_eq, Path.Map.size, Path.Map.entries_foldl_erase]
  exact ⟨List.length_filter_le _ _, List.length_filter_le _ _⟩

/-- A change adds to the table of contexts what it opens and what a look-up makes. -/
theorem size_registered_apply_le (r : Registry) (change : Change) :
    (r.apply change).registered.size ≤ r.registered.size + change.entries 1 := by
  cases change with
  | context changed step => exact Nat.le_of_eq (congrArg _ (r.tables_changeContext changed step).1)
  | tables change =>
    cases change with
    | register d files => exact Path.Map.size_insert_le _ _ _
    | markInitialized => exact Nat.le_refl _
    | detach roots => exact (r.size_detach_le roots).1
    | forget key => exact Path.Map.size_erase_le _ _
    | clear => exact Nat.zero_le _
    | fetch key create =>
      simp only [apply, applyTables]
      obtain ⟨id, _, equal⟩ | ⟨_, _, equal⟩ | ⟨_, _, equal⟩ := r.obtain_cases key create <;>
        rw [equal]
      · exact Nat.le_succ _
      · exact Nat.le_succ _
      · exact Path.Map.size_insert_le _ _ _
    | subsume key owner =>
      simp only [apply, applyTables]
      obtain ⟨_, _, equal⟩ | ⟨_, equal⟩ := r.subsume_cases key owner <;> rw [equal]
      · exact Path.Map.size_erase_le _ _
      · exact Nat.le_refl _

theorem size_workspaces_apply_le (r : Registry) (change : Change) :
    (r.apply change).workspaces.size ≤ r.workspaces.size + change.entries 0 := by
  cases change with
  | context changed step => exact Nat.le_of_eq (congrArg _ (r.tables_changeContext changed step).2)
  | tables change =>
    cases change with
    | register d files => exact Path.Map.size_insert_le _ _ _
    | markInitialized => exact Nat.le_refl _
    | detach roots => exact (r.size_detach_le roots).2
    | forget key => exact Path.Map.size_erase_le _ _
    | clear => exact Nat.zero_le _
    | fetch key create =>
      simp only [apply, applyTables]
      obtain ⟨id, _, equal⟩ | ⟨_, _, equal⟩ | ⟨_, _, equal⟩ := r.obtain_cases key create <;>
        rw [equal] <;>
        exact Nat.le_refl _
    | subsume key owner =>
      simp only [apply, applyTables]
      obtain ⟨_, _, equal⟩ | ⟨_, equal⟩ := r.subsume_cases key owner <;> rw [equal] <;>
        exact Nat.le_refl _

theorem length_candidates_le (r : Registry) : r.candidates.length ≤ r.workspaces.size := by
  refine Nat.le_trans (List.length_filterMap_le _ _) ?_
  simp [Path.Map.keys, Path.Map.size]

theorem length_sweepKeys_le (r : Registry) : r.sweepKeys.length ≤ r.registered.size := by
  unfold sweepKeys
  split
  · unfold standaloneKeys
    rw [List.length_map]
    exact List.length_filter_le _ _
  · exact Nat.zero_le _

end Registry

end PawnQuery
