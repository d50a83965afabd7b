import PawnQuery.Proofs.Registry.Lookup

/-!
# The two tables of a registry

The registered contexts and the open workspaces stand in two tables, and the sections that change
them change one or both.  A key is put into a table by its components, so a folder that comes again
in another spelling does not come twice.  A workspace's context is registered together with its
workspace, and it goes no later than the workspace does: every section that closes a workspace takes
the context away as well.
-/

namespace PawnQuery

open PawnQuery.Workspace (Descriptor)

namespace Registry

/-- The tables have each key once, a workspace stands under its root, and a workspace's context
stands only where a workspace is open. -/
structure Coherent (r : Registry) : Prop where
  contextKeys : r.registered.Distinct
  workspaceKeys : r.workspaces.Distinct
  described : ∀ root d, r.workspaces.get? root = some d → d.root.Same root
  opened : ∀ key, r.bindsWorkspace key = true → r.workspaces.contains key = true

/-! ## What a path stands for -/

theorem isWorkspace_apply_of_found {r : Registry} {id : ContextId} {c : Context}
    (found : r.context? id = some c) (change : Change) :
    (r.apply change).isWorkspace id = r.isWorkspace id := by
  unfold isWorkspace
  rw [context?_apply found change, found, Option.any_some, Option.any_some]
  cases change.on? id with
  | none => rfl
  | some step => exact c.isWorkspace_apply step

/-- A path that stands for the same context as before stands for a workspace's if it did before. -/
theorem Keyed.bindsWorkspace_apply {r : Registry} (keyed : r.Keyed) (change : Change) {key : Path}
    (kept : (r.apply change).contextAt? key = r.contextAt? key) :
    (r.apply change).bindsWorkspace key = r.bindsWorkspace key := by
  unfold bindsWorkspace
  rw [kept]
  cases found : r.contextAt? key with
  | none => rfl
  | some id =>
    obtain ⟨c, known, -⟩ := keyed key id found
    exact isWorkspace_apply_of_found known change

/-- Whether a path stands for a workspace's context depends on nothing but the table and the
store. -/
theorem bindsWorkspace_of_contextAt? {r other : Registry} (store : other.store = r.store)
    {key : Path} (kept : other.contextAt? key = r.contextAt? key) :
    other.bindsWorkspace key = r.bindsWorkspace key := by
  unfold bindsWorkspace isWorkspace context?
  rw [kept, store]

/-! ## Changes of the tables -/

theorem Coherent.register {r : Registry} (coherent : r.Coherent) (keyed : r.Keyed) (d : Descriptor)
    (files : Files.FileTree) : (r.register d files).1.Coherent := by
  refine ⟨coherent.contextKeys.insert _ _, coherent.workspaceKeys.insert _ _, ?_, ?_⟩
  · intro root other found
    have looked := (Path.Map.get?_insert r.workspaces d.root root d).symm.trans found
    split at looked
    next same =>
      obtain rfl := Option.some.inj looked
      exact same
    next => exact coherent.described root other looked
  · intro key binds
    by_cases same : d.root.Same key
    · exact (Path.Map.contains_insert _ _ _ _).mpr (.inl same)
    · have kept : (r.register d files).1.contextAt? key = r.contextAt? key :=
        Path.Map.get?_insert_of_not_same _ _ same
      have before : r.bindsWorkspace key = true :=
        (keyed.bindsWorkspace_apply (.tables (.register d files)) kept).symm.trans binds
      exact (Path.Map.contains_insert _ _ _ _).mpr (.inr (coherent.opened key before))

theorem Coherent.forget {r : Registry} (coherent : r.Coherent) (key : Path) :
    (r.forget key).Coherent := by
  refine ⟨coherent.contextKeys.erase key, coherent.workspaceKeys.erase key, ?_, ?_⟩
  · intro root d found
    have looked := (Path.Map.get?_erase r.workspaces key root).symm.trans found
    split at looked
    next => cases looked
    next => exact coherent.described root d looked
  · intro other binds
    by_cases same : key.Same other
    · obtain ⟨id, found, -⟩ := bindsWorkspace_iff.mp binds
      have gone := (Path.Map.get?_erase r.registered key other).symm.trans found
      rw [if_pos same] at gone
      cases gone
    · have kept : (r.forget key).contextAt? other = r.contextAt? other :=
        Path.Map.get?_erase_of_not_same _ same
      have store : (r.forget key).store = r.store := rfl
      have before := (bindsWorkspace_of_contextAt? store kept).symm.trans binds
      exact (Path.Map.contains_erase _ _ _).mpr ⟨same, coherent.opened other before⟩

theorem Coherent.detach {r : Registry} (coherent : r.Coherent) (roots : List Path) :
    (r.detach roots).Coherent := by
  unfold Registry.detach
  induction roots generalizing r with
  | nil => exact coherent
  | cons root roots inductionHypothesis => exact inductionHypothesis (coherent.forget root)

theorem Coherent.obtain {r : Registry} (coherent : r.Coherent) (keyed : r.Keyed) (key : Path)
    (create : Bool) : (r.obtain key create).1.Coherent := by
  obtain ⟨id, _, equal⟩ | ⟨_, _, equal⟩ | ⟨_, rfl, equal⟩ := r.obtain_cases key create
  · rw [equal]
    exact coherent
  · rw [equal]
    exact coherent
  · rw [equal]
    refine ⟨coherent.contextKeys.insert _ _, coherent.workspaceKeys, coherent.described, ?_⟩
    intro other binds
    obtain ⟨id, found, workspace⟩ := bindsWorkspace_iff.mp binds
    have looked := (Path.Map.get?_insert r.registered key other r.store.length).symm.trans found
    split at looked
    next =>
      obtain rfl := Option.some.inj looked
      simp [isWorkspace, context?, Context.standalone] at workspace
    next =>
      have kept : (r.applyTables (.fetch key true)).contextAt? other = r.contextAt? other := by
        simp only [applyTables, equal]
        exact found.trans looked.symm
      refine coherent.opened other ?_
      rw [← keyed.bindsWorkspace_apply (.tables (.fetch key true)) kept]
      simp only [apply, applyTables, equal]
      exact binds

theorem Coherent.subsume {r : Registry} (coherent : r.Coherent) (key owner : Path) :
    (r.subsume key owner).Coherent := by
  obtain ⟨_, _, equal⟩ | ⟨_, equal⟩ := r.subsume_cases key owner
  · rw [equal]
    refine ⟨coherent.contextKeys.erase key, coherent.workspaceKeys, coherent.described, ?_⟩
    intro other binds
    obtain ⟨id, found, workspace⟩ := bindsWorkspace_iff.mp binds
    exact coherent.opened other (bindsWorkspace_iff.mpr ⟨id, contextAt?_forget found, workspace⟩)
  · rw [equal]
    exact coherent

theorem Coherent.apply {r : Registry} (coherent : r.Coherent) (keyed : r.Keyed) (change : Change) :
    (r.apply change).Coherent := by
  cases change with
  | tables change =>
    cases change with
    | register d files => exact coherent.register keyed d files
    | markInitialized =>
      exact ⟨coherent.contextKeys, coherent.workspaceKeys, coherent.described, coherent.opened⟩
    | detach roots => exact coherent.detach roots
    | fetch key create => exact coherent.obtain keyed key create
    | forget key => exact coherent.forget key
    | subsume key owner => exact coherent.subsume key owner
    | clear => exact ⟨.nil, .nil, (fun _ _ found => nomatch found), fun _ binds => nomatch binds⟩
  | context changed step =>
    obtain ⟨registered, workspaces⟩ := r.tables_changeContext changed step
    refine ⟨?_, ?_, ?_, ?_⟩ <;> simp only [Registry.apply, registered, workspaces]
    · exact coherent.contextKeys
    · exact coherent.workspaceKeys
    · exact coherent.described
    · intro key binds
      refine coherent.opened key ?_
      have kept : (r.apply (.context changed step)).contextAt? key = r.contextAt? key := by
        simp only [contextAt?, Registry.apply, registered]
      rw [← keyed.bindsWorkspace_apply (.context changed step) kept]
      exact binds

end Registry

namespace Engine.State

theorem Initial.coherent {s : State} (initial : s.Initial) : s.registry.Coherent := by
  refine ⟨?_, ?_, ?_, ?_⟩
  · rw [initial.registered]
    exact Path.Map.distinct_empty
  · rw [initial.workspaces]
    exact Path.Map.distinct_empty
  · intro root d found
    rw [initial.workspaces] at found
    cases found
  · intro key binds
    rw [Registry.bindsWorkspace, Registry.contextAt?, initial.registered] at binds
    cases binds

theorem coherent_afterAll {s : State} (coherent : s.registry.Coherent) (keyed : s.registry.Keyed)
    (es : List Event) : (s.afterAll es).registry.Coherent := by
  induction es generalizing s with
  | nil => exact coherent
  | cons e es inductionHypothesis =>
    have next : (s.after e).registry.Coherent := by
      rw [registry_after]
      cases s.change? e with
      | none => exact coherent
      | some change => exact coherent.apply keyed change
    exact inductionHypothesis next (keyed_afterAll keyed [e])

/-- After every run no two registered contexts and no two open workspaces have keys that agree;
every context and every workspace stands under its own root; and wherever a workspace's context is
registered a workspace is open. -/
theorem tables_agree {s : State} (initial : s.Initial) (es : List Event) :
    let r := (s.afterAll es).registry
    (r.registered.keys.Pairwise fun key other => ¬ key.Same other) ∧
      (r.workspaces.keys.Pairwise fun root other => ¬ root.Same other) ∧
      (∀ key id, (key, id) ∈ r.registered.entries →
        ∃ c, r.context? id = some c ∧ c.root.Same key) ∧
      (∀ root d, (root, d) ∈ r.workspaces.entries → d.root.Same root) ∧
      ∀ key id c, (key, id) ∈ r.registered.entries → r.context? id = some c →
        c.isWorkspace = true → ∃ root ∈ r.workspaces.keys, root.Same key := by
  intro r
  have keyed : r.Keyed := keyed_afterAll initial.keyed es
  have coherent : r.Coherent := coherent_afterAll initial.coherent initial.keyed es
  clear_value r
  have stands : ∀ key id, (key, id) ∈ r.registered.entries → r.contextAt? key = some id :=
    fun key id member => coherent.contextKeys.get?_of_mem member
  refine ⟨coherent.contextKeys, coherent.workspaceKeys, ?_, ?_, ?_⟩
  · exact fun key id member => keyed key id (stands key id member)
  · exact fun root d member =>
      coherent.described root d (coherent.workspaceKeys.get?_of_mem member)
  · intro key id c member found workspace
    have binds : r.bindsWorkspace key = true :=
      Registry.bindsWorkspace_iff.mpr
        ⟨id, stands key id member, Registry.isWorkspace_iff.mpr ⟨c, found, workspace⟩⟩
    exact Path.Map.contains_iff_mem_keys.mp (coherent.opened key binds)

/-- A workspace is opened at `/w` and again at `/w/.`, and a script gets a context. -/
def respelledRun : List Event :=
  let moves (task : TaskId) (n : Nat) : List Event := .replicate n (.advance task)
  [.perform (.create [{ root := ⟨"/w"⟩ }])] ++ moves 0 6 ++
    [.perform (.update [] [{ root := ⟨"/w/."⟩ }])] ++ moves 1 6 ++
    [.perform (.get ⟨"/a.pwn"⟩ true)] ++ moves 2 6

/-- The folder keeps its first spelling as a key; context and workspace are the later ones. -/
theorem tables_agree_respelledRun :
    Initial {} ∧
      let r := (afterAll {} respelledRun).registry
      r.registered.entries = [(⟨"/w"⟩, 1), (⟨"/a.pwn"⟩, 2)] ∧
        r.workspaces.entries = [(⟨"/w"⟩, { root := ⟨"/w/."⟩ })] ∧
        (∃ c, r.context? 1 = some c ∧ c.root.Same ⟨"/w"⟩) ∧
        (⟨"/w/."⟩ : Path).Same ⟨"/w"⟩ := by
  have registered : (afterAll {} respelledRun).registry.registered.entries =
      [(⟨"/w"⟩, 1), (⟨"/a.pwn"⟩, 2)] := by decide +kernel
  have opened : (afterAll {} respelledRun).registry.workspaces.entries =
      [(⟨"/w"⟩, { root := ⟨"/w/."⟩ })] := by decide +kernel
  obtain ⟨-, -, rooted, described, -⟩ := tables_agree initial_default respelledRun
  refine ⟨initial_default, registered, opened, rooted _ _ ?_,
    described ⟨"/w"⟩ { root := ⟨"/w/."⟩ } ?_⟩
  · rw [registered]
    exact List.mem_cons_self
  · rw [opened]
    exact List.mem_cons_self

end Engine.State

end PawnQuery
