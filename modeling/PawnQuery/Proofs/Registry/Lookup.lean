import PawnQuery.Proofs.Engine.Answer
import PawnQuery.Proofs.Registry.Binding

/-!
# What a look-up hands out

Whoever asks for the context of a path is given what is registered under its owner.  The owner is
found first and looked up later; in between anything may happen to the owner's workspace.  So the
context handed out is the path's own or a workspace's exactly if, at the look-up, the owner still
has a workspace's context or is the path itself.
-/

namespace PawnQuery

namespace Registry

/-- Every context is registered under its own root. -/
def Keyed (r : Registry) : Prop :=
  ∀ key id, r.contextAt? key = some id → ∃ c, r.context? id = some c ∧ c.root.Same key

theorem Keyed.subset {r other : Registry} (keyed : r.Keyed) (store : other.store = r.store)
    (fewer : ∀ key id, other.contextAt? key = some id → r.contextAt? key = some id) :
    other.Keyed := by
  intro key id found
  unfold context?
  rw [store]
  exact keyed key id (fewer key id found)

theorem contextAt?_forget {r : Registry} {key other : Path} {id : ContextId}
    (found : (r.forget key).contextAt? other = some id) : r.contextAt? other = some id := by
  simp only [forget, contextAt?, Path.Map.get?_erase] at found
  split at found
  · cases found
  · exact found

theorem contextAt?_detach_eq (r : Registry) (roots : List Path) (key : Path) :
    (r.detach roots).contextAt? key =
      if ∃ root ∈ roots, root.Same key then none else r.contextAt? key := by
  rw [detach_eq]
  exact Path.Map.get?_foldl_erase r.registered roots key

theorem contextAt?_detach {r : Registry} {roots : List Path} {key : Path} {id : ContextId}
    (found : (r.detach roots).contextAt? key = some id) : r.contextAt? key = some id := by
  rw [contextAt?_detach_eq] at found
  split at found
  · cases found
  · exact found

theorem Keyed.insert {r other : Registry} (keyed : r.Keyed) {key : Path} {c : Context}
    (root : c.root = key) (store : other.store = r.store ++ [c])
    (registered : other.registered = r.registered.insert key r.store.length) : other.Keyed := by
  intro path id found
  simp only [contextAt?, registered, Path.Map.get?_insert] at found
  unfold context?
  rw [store]
  split at found
  next same =>
    obtain rfl := Option.some.inj found
    exact ⟨c, by simp, by rw [root]; exact same⟩
  next =>
    obtain ⟨old, known, same⟩ := keyed path id found
    obtain ⟨inside, -⟩ := List.getElem?_eq_some_iff.mp known
    exact ⟨old, by rw [List.getElem?_append_left inside]; exact known, same⟩

theorem Keyed.obtain {r : Registry} (keyed : r.Keyed) (key : Path) (create : Bool) :
    (r.obtain key create).1.Keyed := by
  obtain ⟨id, _, equal⟩ | ⟨_, _, equal⟩ | ⟨_, _, equal⟩ := r.obtain_cases key create
  · rw [equal]
    exact keyed
  · rw [equal]
    exact keyed
  · rw [equal]
    exact keyed.insert (c := .standalone key r.settings) rfl rfl rfl

theorem Keyed.applyTables {r : Registry} (keyed : r.Keyed) (change : TableChange) :
    (r.applyTables change).Keyed := by
  cases change with
  | register d files => exact keyed.insert rfl rfl rfl
  | markInitialized => exact keyed
  | detach roots => exact keyed.subset (store_detach r roots) fun _ _ => contextAt?_detach
  | fetch key create => exact keyed.obtain key create
  | forget key => exact keyed.subset rfl fun _ _ => contextAt?_forget
  | clear => exact keyed.subset rfl fun _ _ found => nomatch found
  | subsume key owner =>
    simp only [Registry.applyTables]
    obtain ⟨_, _, equal⟩ | ⟨_, equal⟩ := r.subsume_cases key owner
    · rw [equal]
      exact keyed.subset rfl fun _ _ => contextAt?_forget
    · rw [equal]
      exact keyed

theorem Keyed.apply {r : Registry} (keyed : r.Keyed) (change : Change) :
    (r.apply change).Keyed := by
  cases change with
  | tables change => exact keyed.applyTables change
  | context changed change =>
    intro key id found
    simp only [Registry.apply] at found ⊢
    unfold contextAt? at found
    rw [(r.tables_changeContext changed change).1] at found
    obtain ⟨c, known, same⟩ := keyed key id found
    refine ⟨_, context?_apply known (.context changed change), ?_⟩
    cases (Change.context changed change).on? id with
    | none => exact same
    | some change => simpa using same

/-- The context that is found under a path or made for it is the one of the path, or a workspace's
if and only if one is registered there. -/
theorem Keyed.root_obtain {r : Registry} (keyed : r.Keyed) (owner : Path) :
    ∃ id c, (r.obtain owner true).2 = some id ∧ (r.obtain owner true).1.context? id = some c ∧
      c.root.Same owner ∧ c.isWorkspace = r.bindsWorkspace owner := by
  obtain ⟨id, found, equal⟩ | ⟨_, never, _⟩ | ⟨missing, _, equal⟩ := r.obtain_cases owner true
  · obtain ⟨c, known, same⟩ := keyed owner id found
    refine ⟨id, c, by rw [equal], by rw [equal]; exact known, same, ?_⟩
    simp [bindsWorkspace, found, isWorkspace, known]
  · cases never
  · refine ⟨r.store.length, .standalone owner r.settings, by rw [equal], ?_, Path.Same.refl owner,
      ?_⟩
    · rw [equal]
      simp [context?]
    · simp [bindsWorkspace, missing, Context.standalone]

end Registry

namespace Engine

/-- The path whose owner is looked for, and what becomes of it. -/
def Activity.seeks? : Activity → Option (Path × Goal)
  | .resolve path goal | .settle path goal _ => some (path, goal)
  | .enter q _ | .search q _ | .inspect q _ _ => some (q.path, q.goal)
  | _ => none

namespace State

theorem Initial.keyed {s : State} (initial : s.Initial) : s.registry.Keyed := by
  intro key id found
  rw [Registry.contextAt?, initial.registered] at found
  cases found

theorem keyed_afterAll {s : State} (keyed : s.registry.Keyed) (es : List Event) :
    (s.afterAll es).registry.Keyed := by
  induction es generalizing s with
  | nil => exact keyed
  | cons e es inductionHypothesis =>
    refine inductionHypothesis ?_
    rw [registry_after]
    cases s.change? e with
    | none => exact keyed
    | some change => exact keyed.apply change

theorem context?_afterAll {s : State} {id : ContextId} {c : Context}
    (found : s.registry.context? id = some c) (es : List Event) :
    ∃ later, (s.afterAll es).registry.context? id = some later ∧ later.root = c.root ∧
      later.isWorkspace = c.isWorkspace := by
  induction es generalizing s c with
  | nil => exact ⟨c, found, rfl, rfl⟩
  | cons e es inductionHypothesis =>
    obtain ⟨later, foundLater, root, isWorkspace⟩ := inductionHypothesis (context?_after found e)
    refine ⟨later, foundLater, root.trans ?_, isWorkspace.trans ?_⟩ <;>
      cases s.contextChange? e id <;> simp

/-! ## A search from its beginning to its end -/

theorem seeks?_awaitContext (s : State) (task : TaskId) (id : ContextId) (next : Activity) :
    (s.awaitContext task id next).next.activity? = some next := by
  unfold awaitContext
  split
  · rfl
  · split <;> rfl

/-- A search goes on for the same path and goal until the owner is known. -/
theorem seeks?_turn (s : State) (task : TaskId) {a : Activity} {path : Path} {goal : Goal}
    (seeks : a.seeks? = some (path, goal)) :
    (∃ owner, a = .settle path goal owner) ∨
      ∃ b, (s.turn task a).next.activity? = some b ∧ b.seeks? = some (path, goal) := by
  cases a with
  | settle settled known owner =>
    cases seeks
    exact .inl ⟨owner, rfl⟩
  | resolve asked known =>
    cases seeks
    right
    simp only [turn, resolveOwner]
    split <;> exact ⟨_, rfl, rfl⟩
  | enter q left =>
    cases seeks
    right
    cases left with
    | nil => exact ⟨_, rfl, rfl⟩
    | cons w rest =>
      simp only [turn, enterNext]
      split <;> exact ⟨_, rfl, rfl⟩
  | search q left =>
    cases seeks
    right
    cases left with
    | nil => exact ⟨_, rfl, rfl⟩
    | cons w rest =>
      simp only [turn, searchNext]
      split
      · exact ⟨_, seeks?_awaitContext s task w.context _, rfl⟩
      · exact ⟨_, rfl, rfl⟩
  | inspect q w left =>
    cases seeks
    right
    simp only [turn, inspectNext]
    split <;> exact ⟨_, rfl, rfl⟩
  | _ => cases seeks

theorem seeks?_of_goes {s : State} {task : TaskId} {a b : Activity} {path : Path} {goal : Goal}
    (single : ∀ rest, goal ≠ .sweep rest) (seeks : a.seeks? = some (path, goal))
    (goes : (s.turn task a).next.activity? = some b) : b.seeks? = some (path, goal) := by
  obtain ⟨owner, rfl⟩ | ⟨c, goesOn, seeksOn⟩ := s.seeks?_turn task seeks
  · cases goal with
    | sweep rest => exact absurd rfl (single rest)
    | tell | fetch create | remove => cases goes
  · rw [goes] at goesOn
    cases goesOn
    exact seeksOn

/-- A search that has answered has come to know an owner, and its answer is what was registered
under it then. -/
theorem settled_of_answered {s : State} {es : List Event} {task : TaskId} {a : Activity}
    {path : Path} {create : Bool} {answer : Answer} (roster : s.Roster)
    (activity : s.activity? task = some a) (seeks : a.seeks? = some (path, .fetch create))
    (unanswered : s.answer? task = none) (answered : (s.afterAll es).answer? task = some answer) :
    ∃ during later owner, es = during ++ .advance task :: later ∧
      (s.afterAll during).activity? task = some (.settle path (.fetch create) owner) ∧
      answer = .context ((s.afterAll during).registry.obtain owner create).2 := by
  obtain ⟨during, later, b, split, activity, seeks, ends⟩ :=
    ended_of_answered (fun a => a.seeks? = some (path, .fetch create))
      (fun _ _ _ => seeks?_of_goes nofun) roster activity seeks unanswered answered
  obtain ⟨owner, rfl⟩ | ⟨_, goes, -⟩ := (s.afterAll during).seeks?_turn task seeks
  · exact ⟨during, later, owner, split, activity, (Next.ended.inj ends).symm⟩
  · rw [ends] at goes
    cases goes

/-! ## What is handed out -/

/-- Whoever asks for the context of a path, and has a missing one made, is given a context.  It is a
workspace's or the path's own exactly if, when the owner was looked up, the owner was the path
itself or still had a workspace's context. -/
theorem handed_out_own_or_workspace_iff {s : State} (initial : s.Initial) {before es : List Event}
    {path : Path} {answer : Answer}
    (answered : (s.afterAll (before ++ .perform (.get path true) :: es)).answer?
      (s.afterAll before).taskCount = some answer) :
    let task := (s.afterAll before).taskCount
    ∃ during later owner id c, es = during ++ .advance task :: later ∧
      let u := s.afterAll (before ++ .perform (.get path true) :: during)
      u.activity? task = some (.settle path (.fetch true) owner) ∧
        answer = .context (some id) ∧
        (s.afterAll (before ++ .perform (.get path true) :: es)).registry.context? id = some c ∧
        ((c.isWorkspace = true ∨ c.root.Same path) ↔
          (owner.Same path ∨ u.registry.bindsWorkspace owner = true)) := by
  intro task
  have roster := initial.roster.afterAll before
  have begun : ((s.afterAll before).after (.perform (.get path true))).activity? task =
      some (.resolve path (.fetch true)) := activity?_begin_new roster _
  have unanswered : ((s.afterAll before).after (.perform (.get path true))).answer? task = none :=
    (answer?_after_of_silent (by simp [answersBy])).trans (initial.answer?_taskCount before)
  rw [afterAll_append, afterAll_cons] at answered
  obtain ⟨during, later, owner, rfl, settles, rfl⟩ :=
    settled_of_answered (roster.after _) begun rfl unanswered answered
  have same : s.afterAll (before ++ .perform (.get path true) :: during) =
      ((s.afterAll before).after (.perform (.get path true))).afterAll during := by
    rw [afterAll_append, afterAll_cons]
  rw [← same] at settles ⊢
  have keyed := keyed_afterAll initial.keyed (before ++ .perform (.get path true) :: during)
  obtain ⟨id, c, found, made, root, kind⟩ := keyed.root_obtain owner
  have handed : ((s.afterAll (before ++ .perform (.get path true) :: during)).after
      (.advance task)).registry.context? id = some c := by
    rw [registry_after]
    simp only [change?, settles, Option.bind_some, changeBy?, Goal.change?, Option.map_some]
    exact made
  obtain ⟨held, foundHeld, sameRoot, sameKind⟩ := context?_afterAll handed later
  refine ⟨during, later, owner, id, held, rfl, settles, by rw [found], ?_, ?_⟩
  · rw [← foundHeld, ← afterAll_cons, ← afterAll_append]
    simp
  · rw [sameRoot, sameKind, kind]
    constructor
    · rintro (binds | own)
      · exact .inr binds
      · exact .inl (root.symm.trans own)
    · rintro (own | binds)
      · exact .inr (root.trans own)
      · exact .inl binds

/-- Whether a context is neither a workspace's nor that of a path can be computed. -/
theorem isStray_iff {c : Context} {path : Path} :
    (!c.isWorkspace && !c.root.same path) = true ↔ ¬ (c.isWorkspace = true ∨ c.root.Same path) := by
  rw [← Path.same_iff, not_or, Bool.and_eq_true, Bool.not_eq_true', Bool.not_eq_true',
    Bool.not_eq_true, Bool.not_eq_true]

/-- A script `/w/util.inc` is asked for while the workspace `/w` that includes it runs; the
workspace is closed before it has been looked at. -/
def orphaningRun : List Event :=
  let report := "\x7b\"kind\":\"includedFiles\",\"payload\":[\"/w/util.inc\"]\x7d"
  let moves (task : TaskId) (n : Nat) : List Event := .replicate n (.advance task)
  [.instruct (.record ⟨"/w/main.pwn"⟩ (.ofTexts report "")), .instruct .hold,
    .perform (.create [{ root := ⟨"/w"⟩, mainFile := some "main.pwn" }])] ++ moves 0 6 ++
    moves 1 1 ++ [.perform (.get ⟨"/w/util.inc"⟩ true)] ++ moves 2 4 ++
    [.perform (.update [⟨"/w"⟩] [])] ++ moves 3 2 ++ [.release 0] ++ moves 1 1 ++ moves 2 2

/-- The owner that was found is another path, and nothing is registered there any more. -/
theorem handed_out_orphaningRun :
    let ask : Event := .perform (.get ⟨"/w/util.inc"⟩ true)
    orphaningRun = orphaningRun.take 10 ++ ask :: orphaningRun.drop 11 ∧ Initial {} ∧
      (afterAll {} orphaningRun).answer? (afterAll {} (orphaningRun.take 10)).taskCount =
        some (.context (some 1)) ∧
      ∃ during owner,
        (afterAll {} (orphaningRun.take 10 ++ ask :: during)).activity? 2 =
            some (.settle ⟨"/w/util.inc"⟩ (.fetch true) owner) ∧
          ¬ (owner.Same ⟨"/w/util.inc"⟩ ∨
            (afterAll {} (orphaningRun.take 10 ++ ask :: during)).registry.bindsWorkspace owner =
              true) := by
  intro ask
  have split : orphaningRun = orphaningRun.take 10 ++ ask :: orphaningRun.drop 11 := by
    decide +kernel
  have answered : (afterAll {} orphaningRun).answer?
      (afterAll {} (orphaningRun.take 10)).taskCount = some (.context (some 1)) := by
    decide +kernel
  refine ⟨split, initial_default, answered, ?_⟩
  rw [split] at answered
  obtain ⟨during, _, owner, id, c, _, settles, handed, found, decides⟩ :=
    handed_out_own_or_workspace_iff initial_default answered
  have numbered : (afterAll {} (orphaningRun.take 10)).taskCount = 2 := by decide +kernel
  rw [numbered] at settles
  refine ⟨during, owner, settles, fun binds => ?_⟩
  have kind : ((afterAll {} orphaningRun).registry.context? 1).all
      (fun c => !c.isWorkspace && !c.root.same ⟨"/w/util.inc"⟩) = true := by
    decide +kernel
  cases handed
  rw [split, found, Option.all_some] at kind
  exact isStray_iff.mp kind (decides.mpr binds)

/-- The script's owner has been closed, and a context of a script is made under its folder. -/
theorem orphaningRun_hands_out_other :
    Possible {} orphaningRun ∧ (afterAll {} orphaningRun).answer? 2 = some (.context (some 1)) ∧
      ∃ c, (afterAll {} orphaningRun).registry.context? 1 = some c ∧
        ¬ (c.isWorkspace = true ∨ c.root.Same ⟨"/w/util.inc"⟩) := by
  refine ⟨by decide +kernel, by decide +kernel, ?_⟩
  have kind : ((afterAll {} orphaningRun).registry.context? 1).any
      (fun c => !c.isWorkspace && !c.root.same ⟨"/w/util.inc"⟩) = true := by
    decide +kernel
  obtain ⟨c, found, stray⟩ := (Option.any_eq_true _ _).mp kind
  exact ⟨c, found, isStray_iff.mp stray⟩

end State

end Engine

end PawnQuery
