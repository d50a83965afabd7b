import PawnQuery.Proofs.Registry.Opening

/-!
# Closing some workspaces and opening others

An update that has the program to itself is an update of two ordered maps.  The folders that are
closed go from both; each folder that is opened gets a new context, in its old place if it kept one
and last otherwise.  Whatever stands under other keys stays, and no context is touched.
-/

namespace PawnQuery

open PawnQuery.Workspace (Descriptor)

namespace Path.Map

/-- Neither taking keys away nor putting values under keys touches other entries. -/
theorem filter_entries_update {α : Type} (m : Map α) (gone : List Path) (es : List (Path × α)) :
    let untouched (e : Path × α) : Bool := !(gone ++ es.map (·.1)).any (·.same e.1)
    ((gone.foldl erase m).insertAll es).entries.filter untouched = m.entries.filter untouched := by
  intro untouched
  let P (key : Path) : Bool := !(gone ++ es.map (·.1)).any (·.same key)
  have put : ∀ e ∈ es, ∀ key : Path, key.Same e.1 → P key = false := by
    intro e member key same
    simp only [P, Bool.not_eq_false', List.any_eq_true, same_iff]
    exact ⟨e.1, List.mem_append_right _ (List.mem_map_of_mem member), same.symm⟩
  refine (filter_entries_insertAll (P := P) _ put).trans ?_
  rw [entries_foldl_erase, List.filter_filter]
  refine List.filter_congr fun e _ => ?_
  simp only [P, untouched, List.any_append]
  cases gone.any (·.same e.1) <;> simp

end Path.Map

namespace Registry

variable (r : Registry) (contexts : Descriptor → Context) (removed : List Path)
  (added : List Descriptor)

/-- The folders that are not closed stay, and those that are new follow. -/
theorem keys_workspaces_reopened :
    let kept := r.workspaces.keys.filter fun root => !removed.any (·.same root)
    ((r.detach removed).withOpened contexts added).workspaces.keys =
      kept ++ ((added.map (·.root)).filter fun root => !kept.any (·.same root)).eraseDupsBy
        (fun root other => root.same other) := by
  simp only [withOpened, detach_eq, Path.Map.keys_insertAll, Path.Map.keys_foldl_erase,
    List.map_map]
  rfl

theorem reopened_of_closed {root : Path} (closed : root ∈ removed)
    (absent : ∀ d ∈ added, ¬ d.root.Same root) :
    let after := (r.detach removed).withOpened contexts added
    after.contextAt? root = none ∧ after.workspaces.get? root = none := by
  intro after
  have gone : ∃ other ∈ removed, other.Same root := ⟨root, closed, .refl root⟩
  obtain ⟨described, stands⟩ := (r.detach removed).withOpened_of_absent contexts absent
  rw [described, stands, detach_eq]
  simp only [contextAt?, Path.Map.get?_foldl_erase, gone, if_true, and_self]

/-- Neither table changes under folders that are neither closed nor opened. -/
theorem filter_entries_reopened :
    let isUntouched (key : Path) : Bool :=
      !(removed ++ added.map (·.root)).any (·.same key)
    let after := (r.detach removed).withOpened contexts added
    (after.registered.entries.filter fun e => isUntouched e.1) =
        (r.registered.entries.filter fun e => isUntouched e.1) ∧
      (after.workspaces.entries.filter fun e => isUntouched e.1) =
        (r.workspaces.entries.filter fun e => isUntouched e.1) := by
  intro isUntouched after
  constructor
  · -- The table of contexts gets the same keys as that of workspaces, with numbers for values.
    have numbered : ((added.zipIdx (r.detach removed).store.length).map
        fun e => (e.1.root, e.2)).map (·.1) = added.map (·.root) := by
      rw [List.map_map]
      exact (List.map_map (g := Descriptor.root) (f := Prod.fst)).symm.trans (by simp)
    have untouched := Path.Map.filter_entries_update r.registered removed
      ((added.zipIdx (r.detach removed).store.length).map fun e => (e.1.root, e.2))
    rw [numbered] at untouched
    simp only [after, withOpened, detach_eq] at untouched ⊢
    exact untouched
  · have untouched := Path.Map.filter_entries_update r.workspaces removed
      (added.map fun d => (d.root, d))
    rw [List.map_map] at untouched
    simp only [after, withOpened, detach_eq]
    exact untouched

end Registry

namespace Engine.State

/-- Closing workspaces and opening others updates the two tables as ordered maps.  Of the folders of
open workspaces those that are not closed stay in their order, and the opened ones that are not among
them follow in the order in which they first occur; each opened folder has the last descriptor that
names it, and a context that was not there before; no context is left in a folder that is closed and
not opened again; and all other entries of both tables stay, in their order, with contexts that show
what they showed. -/
theorem update_by_key {s : State} (initial : s.Initial) {es : List Event} (possible : s.Possible es)
    (removed : List Path) (added : List Descriptor) :
    let u := s.afterAll es
    let r := u.registry
    let kept := r.workspaces.keys.filter fun root => !removed.any (·.same root)
    let roots := added.map (·.root)
    let isUntouched (key : Path) : Bool := !(removed ++ roots).any (·.same key)
    ∃ after, u.ConcludesWith (.update removed added) after .done
        (firstLaunches r.settings u.files r.store.length added) ∧
      after.workspaces.keys = kept ++ (roots.filter fun root => !kept.any (·.same root)).eraseDupsBy
        (fun root other => root.same other) ∧
      (∀ d ∈ added, ∃ earlier last later, added = earlier ++ last :: later ∧
        last.root.Same d.root ∧ (∀ e ∈ later, ¬ e.root.Same d.root) ∧
        let id := r.store.length + earlier.length
        after.workspaces.get? d.root = some last ∧ after.contextAt? d.root = some id ∧
          r.context? id = none ∧
          after.context? id = some (last.openedContext r.settings u.files)) ∧
      (∀ root ∈ removed, (∀ d ∈ added, ¬ d.root.Same root) →
        after.contextAt? root = none ∧ after.workspaces.get? root = none) ∧
      (after.registered.entries.filter fun e => isUntouched e.1) =
        (r.registered.entries.filter fun e => isUntouched e.1) ∧
      (after.workspaces.entries.filter fun e => isUntouched e.1) =
        (r.workspaces.entries.filter fun e => isUntouched e.1) ∧
      (∀ id c, r.context? id = some c → after.context? id = some c) ∧
      after.initialized = r.initialized := by
  intro u r kept roots isUntouched
  have store : (r.detach removed).store = r.store := r.store_detach removed
  let contexts (d : Descriptor) := d.openedContext r.settings u.files
  obtain ⟨registered, workspaces⟩ := r.filter_entries_reopened contexts removed added
  refine ⟨(r.detach removed).withOpened contexts added,
    (initial.nextFree possible).concludesWith_update removed added,
    r.keys_workspaces_reopened contexts removed added, ?_,
    fun root closed absent => r.reopened_of_closed contexts removed added closed absent,
    registered, workspaces, ?_, ?_⟩
  · intro d member
    obtain ⟨earlier, last, later, rfl, same, latest⟩ :=
      Registry.exists_last (P := fun e : Descriptor => e.root.Same d.root)
        ⟨d, member, Path.Same.refl d.root⟩
    have opened := (r.detach removed).withOpened_of_last contexts earlier same latest
    simp only [Registry.context?, store] at opened ⊢
    exact ⟨earlier, last, later, rfl, same, latest, opened⟩
  · intro id c found
    refine Registry.context?_withOpened ?_ contexts added
    simpa only [Registry.context?, store] using found
  · simp only [Registry.withOpened, Registry.detach_eq]

/-- Four workspaces are open, and a script `/n` has a context of its own. -/
def settledRun : List Event :=
  let moves (task : TaskId) (n : Nat) : List Event := .replicate n (.advance task)
  [.perform (.create [{ root := ⟨"/a"⟩ }, { root := ⟨"/b"⟩ }, { root := ⟨"/c"⟩ },
    { root := ⟨"/d"⟩ }])] ++ moves 0 15 ++ [.perform (.get ⟨"/n"⟩ true)] ++ moves 1 12

/-- `/a` is closed, `/b` is closed and opened again, `/c` is opened anew, and a workspace is opened
at `/n`, where a script has been, in two spellings. -/
theorem update_by_key_settledRun :
    let removed : List Path := [⟨"/a/"⟩, ⟨"/b"⟩, ⟨"/gone"⟩]
    let added : List Descriptor := [{ root := ⟨"/n/."⟩, name := some "first" }, { root := ⟨"/b"⟩ },
      { root := ⟨"/c/"⟩, mainFile := some "c.pwn" }, { root := ⟨"/n"⟩, mainFile := some "n.pwn" }]
    Initial {} ∧ Possible {} settledRun ∧
      let u := afterAll {} settledRun
      u.registry.registered.entries =
          [(⟨"/a"⟩, 0), (⟨"/b"⟩, 1), (⟨"/c"⟩, 2), (⟨"/d"⟩, 3), (⟨"/n"⟩, 4)] ∧
        ∃ after begun, u.ConcludesWith (.update removed added) after .done begun ∧
          after.workspaces.keys = [⟨"/c"⟩, ⟨"/d"⟩, ⟨"/n/."⟩, ⟨"/b"⟩] ∧
          after.contextAt? ⟨"/a/"⟩ = none ∧
          (∃ id, after.contextAt? ⟨"/n"⟩ = some id ∧ u.registry.context? id = none) ∧
          after.context? 3 = u.registry.context? 3 := by
  intro removed added
  have possible : Possible {} settledRun := by decide +kernel
  have before : (afterAll {} settledRun).registry.registered.entries =
      [(⟨"/a"⟩, 0), (⟨"/b"⟩, 1), (⟨"/c"⟩, 2), (⟨"/d"⟩, 3), (⟨"/n"⟩, 4)] := by decide +kernel
  have stored : ((afterAll {} settledRun).registry.context? 3).isSome = true := by decide +kernel
  obtain ⟨c, found⟩ := Option.isSome_iff_exists.mp stored
  obtain ⟨after, concludes, keys, opened, closed, -, -, kept, -⟩ :=
    update_by_key initial_default possible removed added
  obtain ⟨_, _, _, _, _, _, -, stands, missing, -⟩ :=
    opened { root := ⟨"/n"⟩, mainFile := some "n.pwn" } (by decide +kernel)
  refine ⟨initial_default, possible, before, after, _, concludes, keys.trans (by decide +kernel),
    (closed ⟨"/a/"⟩ (by decide +kernel) (by decide +kernel)).1, ⟨_, stands, missing⟩, ?_⟩
  rw [kept 3 c found, found]

end Engine.State

end PawnQuery
