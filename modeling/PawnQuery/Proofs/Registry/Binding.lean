import PawnQuery.Proofs.Engine.Change
import PawnQuery.Proofs.Path.Map

/-!
# Open workspaces and their contexts

An open workspace is to have a context of its own under its folder.  Every change of a registry
keeps this but one: a sweep takes away what it finds under a path that it remembers as that of a
script.  If a workspace has been opened there meanwhile, the workspace stays open without a context.
-/

namespace PawnQuery.Registry

/-- The context under this path is a workspace's. -/
def bindsWorkspace (r : Registry) (key : Path) : Bool := (r.contextAt? key).any r.isWorkspace

/-- Every open workspace has a workspace's context under its folder. -/
def Bound (r : Registry) : Prop :=
  ∀ root ∈ r.workspaces.keys, ∃ id, r.contextAt? root = some id ∧ r.isWorkspace id = true

/-- A change takes away the context of a workspace that stays open. -/
def Change.Uproots (r : Registry) : Change → Prop
  | .tables (.subsume key owner) =>
    ¬ owner.Same key ∧ r.bindsWorkspace owner = true ∧ r.workspaces.contains key = true
  | _ => False

instance (r : Registry) (change : Change) : Decidable (change.Uproots r) := by
  cases change with
  | tables change => cases change <;> unfold Change.Uproots <;> infer_instance
  | context id change => unfold Change.Uproots; infer_instance

theorem bindsWorkspace_iff {r : Registry} {key : Path} :
    r.bindsWorkspace key = true ↔ ∃ id, r.contextAt? key = some id ∧ r.isWorkspace id = true := by
  simp [bindsWorkspace, Option.any_eq_true]

theorem bindsWorkspace_congr (r : Registry) {key other : Path} (same : key.Same other) :
    r.bindsWorkspace key = r.bindsWorkspace other := by
  unfold bindsWorkspace contextAt?
  rw [Path.Map.get?_congr _ same]

/-- It does not matter how a folder is spelled. -/
theorem bound_iff {r : Registry} :
    r.Bound ↔ ∀ path, r.workspaces.contains path = true → r.bindsWorkspace path = true := by
  constructor
  · intro bound path opened
    obtain ⟨root, member, same⟩ := Path.Map.contains_iff_mem_keys.mp opened
    rw [← bindsWorkspace_congr r same]
    exact bindsWorkspace_iff.mpr (bound root member)
  · intro binds root member
    apply bindsWorkspace_iff.mp
    exact binds root (Path.Map.contains_iff_mem_keys.mpr ⟨root, member, Path.Same.refl root⟩)

/-! ## What a context is the context of -/

theorem isWorkspace_iff {r : Registry} {id : ContextId} :
    r.isWorkspace id = true ↔ ∃ c, r.context? id = some c ∧ c.isWorkspace = true := by
  simp [isWorkspace, Option.any_eq_true]

theorem isWorkspace_apply {r : Registry} {id : ContextId} (workspace : r.isWorkspace id = true)
    (change : Change) : (r.apply change).isWorkspace id = true := by
  obtain ⟨c, found, isWorkspace⟩ := isWorkspace_iff.mp workspace
  refine isWorkspace_iff.mpr ⟨_, context?_apply found change, ?_⟩
  cases change.on? id with
  | none => exact isWorkspace
  | some step => exact (c.isWorkspace_apply step).trans isWorkspace

theorem bindsWorkspace_apply {r : Registry} {key : Path} (binds : r.bindsWorkspace key = true)
    (change : Change) (kept : (r.apply change).contextAt? key = r.contextAt? key) :
    (r.apply change).bindsWorkspace key = true := by
  obtain ⟨id, found, workspace⟩ := bindsWorkspace_iff.mp binds
  exact bindsWorkspace_iff.mpr ⟨id, kept.trans found, isWorkspace_apply workspace change⟩

/-! ## Changes of the tables -/

theorem isWorkspace_register (r : Registry) (d : Workspace.Descriptor) (files : Files.FileTree) :
    (r.register d files).1.isWorkspace r.store.length = true := by
  simp [isWorkspace, register, addContext, context?, Context.workspace]

theorem bindsWorkspace_register (r : Registry) (d : Workspace.Descriptor) (files : Files.FileTree)
    {path : Path} (opened : (r.register d files).1.workspaces.contains path = true)
    (binds : r.workspaces.contains path = true → r.bindsWorkspace path = true) :
    (r.register d files).1.bindsWorkspace path = true := by
  by_cases same : d.root.Same path
  · rw [← bindsWorkspace_congr _ same]
    exact bindsWorkspace_iff.mpr ⟨_, contextAt?_register r d files, isWorkspace_register r d files⟩
  · have kept : (r.register d files).1.contextAt? path = r.contextAt? path :=
      Path.Map.get?_insert_of_not_same _ _ same
    have before : r.workspaces.contains path = true :=
      ((Path.Map.contains_insert _ _ _ _).mp opened).resolve_left same
    exact bindsWorkspace_apply (binds before) (.tables (.register d files)) kept

theorem bound_forget {r : Registry} (bound : r.Bound) (key : Path) : (r.forget key).Bound := by
  rw [bound_iff] at bound ⊢
  intro path opened
  obtain ⟨differ, before⟩ := (Path.Map.contains_erase _ _ _).mp opened
  exact bindsWorkspace_apply (bound path before) (.tables (.forget key))
    (Path.Map.get?_erase_of_not_same _ differ)

theorem bound_detach {r : Registry} (bound : r.Bound) (roots : List Path) :
    (r.detach roots).Bound := by
  unfold detach
  induction roots generalizing r with
  | nil => exact bound
  | cons root roots inductionHypothesis => exact inductionHypothesis (bound_forget bound root)

/-- A context made for a script takes no workspace's place: there was none under its path. -/
theorem bound_obtain {r : Registry} (bound : r.Bound) (key : Path) (create : Bool) :
    (r.obtain key create).1.Bound := by
  obtain ⟨id, _, equal⟩ | ⟨_, _, equal⟩ | ⟨missing, rfl, equal⟩ := r.obtain_cases key create
  · rw [equal]; exact bound
  · rw [equal]; exact bound
  · rw [bound_iff] at bound ⊢
    intro path opened
    have before : r.workspaces.contains path = true := by rw [equal] at opened; exact opened
    have differ : ¬ key.Same path := by
      intro same
      obtain ⟨id, found, _⟩ := bindsWorkspace_iff.mp (bound path before)
      rw [contextAt?, ← Path.Map.get?_congr _ same] at found
      cases missing.symm.trans found
    apply bindsWorkspace_apply (bound path before) (.tables (.fetch key true))
    simp only [apply, applyTables, equal]
    exact Path.Map.get?_insert_of_not_same _ _ differ

/-- A sweep keeps every workspace's context exactly if it does not hit one. -/
theorem bound_subsume_iff {r : Registry} (bound : r.Bound) (key owner : Path) :
    (r.subsume key owner).Bound ↔ ¬ Change.Uproots r (.tables (.subsume key owner)) := by
  obtain ⟨differ, owned, equal⟩ | ⟨spared, equal⟩ := r.subsume_cases key owner
  · rw [equal, bound_iff]
    constructor
    · rintro still ⟨_, _, opened⟩
      obtain ⟨id, found, _⟩ := bindsWorkspace_iff.mp (still key opened)
      cases (Path.Map.get?_erase_self r.registered key).symm.trans found
    · intro harmless path opened
      have apart : ¬ key.Same path := by
        intro same
        apply harmless
        refine ⟨differ, owned, ?_⟩
        obtain ⟨root, member, sameRoot⟩ := Path.Map.contains_iff_mem_keys.mp opened
        exact Path.Map.contains_iff_mem_keys.mpr ⟨root, member, sameRoot.trans same.symm⟩
      have kept : r.bindsWorkspace path = true := bound_iff.mp bound path opened
      obtain ⟨id, found, workspace⟩ := bindsWorkspace_iff.mp kept
      exact bindsWorkspace_iff.mpr
        ⟨id, (Path.Map.get?_erase_of_not_same _ apart).trans found, workspace⟩
  · have harmless : ¬ Change.Uproots r (.tables (.subsume key owner)) :=
      fun uproots => spared ⟨uproots.1, uproots.2.1⟩
    simp only [equal, bound, harmless, not_false_eq_true]

/-! ## All changes -/

/-- Every change keeps a workspace's context for every open workspace, unless it is the one that
takes such a context away. -/
theorem bound_apply_iff {r : Registry} (bound : r.Bound) (change : Change) :
    (r.apply change).Bound ↔ ¬ change.Uproots r := by
  have harmless (step : Change) (kept : (r.apply step).Bound) (gentle : ¬ step.Uproots r) :
      (r.apply step).Bound ↔ ¬ step.Uproots r := ⟨fun _ => gentle, fun _ => kept⟩
  cases change with
  | tables change =>
    cases change with
    | register d files =>
      refine harmless _ ?_ id
      rw [bound_iff] at bound ⊢
      exact fun path opened => bindsWorkspace_register r d files opened (bound path)
    | markInitialized => exact harmless _ bound id
    | detach roots => exact harmless _ (bound_detach bound roots) id
    | fetch key create => exact harmless _ (bound_obtain bound key create) id
    | forget key => exact harmless _ (bound_forget bound key) id
    | subsume key owner => exact bound_subsume_iff bound key owner
    | clear => exact harmless _ (fun root member => nomatch member) id
  | context changed step =>
    refine harmless (.context changed step) ?_ id
    rw [bound_iff] at bound ⊢
    intro path opened
    obtain ⟨registered, workspaces⟩ := r.tables_changeContext changed step
    simp only [apply, workspaces] at opened
    apply bindsWorkspace_apply (bound path opened) (.context changed step)
    simp only [contextAt?, apply, registered]

end PawnQuery.Registry

namespace PawnQuery.Engine.State

open PawnQuery.Registry (Change)

/-! ## Runs -/

/-- A sweep is about to take a path off the table although a workspace is open there: the owner
that it has found is another path and has a workspace's context. -/
def Uproots (s : State) : Event → Prop
  | .advance task =>
    match s.activity? task with
    | some (.settle path (.sweep _) owner) =>
      ¬ owner.Same path ∧ s.registry.bindsWorkspace owner = true ∧
        s.registry.workspaces.contains path = true
    | _ => False
  | _ => False

theorem uproots_iff {s : State} {e : Event} :
    s.Uproots e ↔ ∃ change, s.change? e = some change ∧ change.Uproots s.registry := by
  cases e with
  | advance task =>
    simp only [Uproots, change?]
    cases s.activity? task with
    | none => simp
    | some a =>
      cases a with
      | settle path goal owner => cases goal <;> simp [changeBy?, Goal.change?, Change.Uproots]
      | register todo made => cases todo <;> simp [changeBy?, Change.Uproots]
      | enroll added => cases added <;> simp [changeBy?, Activity.awaited?, Change.Uproots]
      | assign assignments added =>
        cases assignments <;> simp [changeBy?, Activity.awaited?, Change.Uproots]
      | search q left =>
        cases left with
        | nil => simp [changeBy?, Activity.awaited?]
        | cons w rest =>
          simp only [changeBy?, Activity.awaited?, Option.bind_some]
          split <;> simp [Change.Uproots]
      | _ => simp [changeBy?, Activity.awaited?, Change.Uproots]
  | _ => simp [Uproots, change?, Change.Uproots]

instance (s : State) (e : Event) : Decidable (s.Uproots e) :=
  decidable_of_iff ((s.change? e).any (fun change => decide (change.Uproots s.registry)) = true)
    (by rw [uproots_iff, Option.any_eq_true]; simp only [decide_eq_true_eq])

theorem bound_after_iff {s : State} (bound : s.registry.Bound) (e : Event) :
    (s.after e).registry.Bound ↔ ¬ s.Uproots e := by
  rw [registry_after, uproots_iff]
  cases made : s.change? e with
  | none => simp [bound]
  | some change => simp [Registry.bound_apply_iff bound]

theorem Initial.bound {s : State} (initial : s.Initial) : s.registry.Bound := by
  intro root member
  rw [initial.workspaces] at member
  cases member

theorem bound_afterAll {s : State} (bound : s.registry.Bound) {es : List Event}
    (rooted : s.Always (fun s e => ¬ s.Uproots e) es) : (s.afterAll es).registry.Bound := by
  induction es generalizing s with
  | nil => exact bound
  | cons e es inductionHypothesis =>
    exact inductionHypothesis ((bound_after_iff bound e).mpr rooted.1) rooted.2

/-- In every state of a run every open workspace has a workspace's context, exactly if no sweep of
the run takes such a context away. -/
theorem bound_throughout_iff {s : State} (initial : s.Initial) (es : List Event) :
    (∀ n, (s.afterAll (es.take n)).registry.Bound) ↔ s.Always (fun s e => ¬ s.Uproots e) es := by
  have bound : s.registry.Bound := by
    intro root member
    rw [initial.workspaces] at member
    cases member
  clear initial
  -- The equivalence holds from any bound state on, so it is carried along event by event.
  induction es generalizing s with
  | nil => simp [bound]
  | cons e es inductionHypothesis =>
    rw [always_cons, ← bound_after_iff bound]
    constructor
    · intro throughout
      have next : (s.after e).registry.Bound := throughout 1
      exact ⟨next, (inductionHypothesis next).mp fun n => throughout (n + 1)⟩
    · rintro ⟨next, rest⟩ n
      cases n with
      | zero => exact bound
      | succ n => exact (inductionHypothesis next).mpr rest n

/-- A workspace `/w` runs, a script `/w/sub` has a context of its own, and the main file of `/w`
includes it.  A sweep begins and waits for `/w`; meanwhile a workspace `/w/sub` is opened. -/
def uprootingRun : List Event :=
  let report := "\x7b\"kind\":\"includedFiles\",\"payload\":[\"/w/sub\"]\x7d"
  let moves (task : TaskId) (n : Nat) : List Event := .replicate n (.advance task)
  [.perform (.create [{ root := ⟨"/w"⟩, mainFile := some "main.pwn" }])] ++ moves 0 6 ++
    moves 1 4 ++ [.perform (.get ⟨"/w/sub"⟩ true)] ++ moves 2 7 ++
    [.instruct (.record ⟨"/w/main.pwn"⟩ (.ofTexts report "")), .instruct .hold, .run 0] ++
    moves 3 1 ++ [.perform .sweep] ++ moves 4 5 ++
    [.perform (.update [] [{ root := ⟨"/w/sub"⟩ }])] ++ moves 5 6 ++ [.release 0] ++ moves 3 1 ++
    moves 4 2

theorem bound_throughout_uprootingRun :
    Initial {} ∧ ¬ ∀ n, (afterAll {} (uprootingRun.take n)).registry.Bound := by
  refine ⟨initial_default, ?_⟩
  rw [bound_throughout_iff initial_default]
  decide +kernel

/-- The workspace `/w/sub` stays open, but the sweep has taken its context. -/
theorem uprootingRun_not_bound :
    Possible {} uprootingRun ∧ ¬ (afterAll {} uprootingRun).registry.Bound := by
  refine ⟨by decide +kernel, ?_⟩
  rw [Registry.bound_iff]
  intro binds
  have absent := binds ⟨"/w/sub"⟩ (by decide +kernel)
  revert absent
  decide +kernel

end PawnQuery.Engine.State
