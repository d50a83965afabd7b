import PawnQuery.Config.Basic
import PawnQuery.Proofs.Registry.Opening
import PawnQuery.Proofs.Registry.Precedence
import PawnQuery.Proofs.Registry.Routine

/-!
# The first workspaces

The first workspaces are all registered before any of them gets its main file.  So by the time that
the first invocation begins, the registry is marked as initialized, and whatever follows from an
invocation finds all of them.
-/

namespace PawnQuery

open PawnQuery.Files (FileTree)
open PawnQuery.Registry (Assignment Candidate IsFirst)
open PawnQuery.Workspace (Descriptor)

namespace Workspace.Descriptor

/-- The names of main files that are looked for in a folder, best first. -/
def soughtNames (root : Path) : List String :=
  (match root.fileName? with
    | some name => [name ++ ".pwn", name ++ ".p", name ++ ".inc"]
    | none => []) ++ ["main.pwn", "main.p", "main.inc"]

/-- The main file of a workspace: the one configured, unless that is empty; else the first of the
sought names that is a file in the folder; else none. -/
def Chooses (d : Descriptor) (files : FileTree) (file : String) : Prop :=
  (d.mainFile = some file ∧ file ≠ "") ∨ ((d.mainFile = none ∨ d.mainFile = some "") ∧
    let isThere (name : String) : Prop := files.isFile (d.root.joinText name) = true
    (IsFirst isThere (soughtNames d.root) file ∨
      (∀ name ∈ soughtNames d.root, ¬ isThere name) ∧ file = ""))

theorem mainFileCandidates_eq (root : Path) : mainFileCandidates root = soughtNames root := by
  unfold mainFileCandidates soughtNames
  cases root.fileName? <;> simp [scriptExtensions, fallbackName, String.append_assoc]

theorem chooses_effectiveMainFile (d : Descriptor) (files : FileTree) :
    d.Chooses files (d.effectiveMainFile files) := by
  have looked : let isThere (name : String) : Prop := files.isFile (d.root.joinText name) = true
      IsFirst isThere (soughtNames d.root) (defaultMainFile files d.root) ∨
        (∀ name ∈ soughtNames d.root, ¬ isThere name) ∧ defaultMainFile files d.root = "" := by
    unfold defaultMainFile
    rw [mainFileCandidates_eq]
    cases found : (soughtNames d.root).find? fun name => files.isFile (d.root.joinText name) with
    | some name => exact .inl (Registry.isFirst_of_find? (fun _ => Iff.rfl) found)
    | none => exact .inr ⟨fun name member => List.find?_eq_none.mp found name member, rfl⟩
  unfold Chooses effectiveMainFile
  cases configured : d.mainFile with
  | none => exact .inr ⟨.inl rfl, looked⟩
  | some file =>
    by_cases empty : file = ""
    · subst empty
      exact .inr ⟨.inr rfl, looked⟩
    · have named : file.isEmpty = false := by simpa [String.isEmpty_iff] using empty
      exact .inl (by simp [named, empty])

end Workspace.Descriptor

namespace Engine.State

variable {s : State} {task : TaskId}

/-! ## Nothing begins too early -/

/-- A task is about to register workspaces, or to open them after the registry has been marked as
initialized. -/
def Marked (s : State) (task : TaskId) : Prop :=
  ∀ a, s.activity? task = some a →
    match a with
    | .register _ _ => True
    | .assign _ _ | .request _ _ _ | .enroll _ => s.registry.initialized = true
    | _ => False

theorem Marked.after (marked : s.Marked task) (old : task < s.taskCount) :
    (s.after (.advance task)).Marked task := by
  intro b activity
  cases before : s.activity? task with
  | none =>
    rw [activity?_after_of_ended old before] at activity
    cases activity
  | some a =>
    have made : (s.after (.advance task)).registry =
        (s.changeBy? task a).elim s.registry s.registry.apply := by
      rw [registry_after, change?, before, Option.bind_some]
    have kept : ∀ change, s.changeBy? task a = some change → change ≠ .tables .clear →
        s.registry.initialized = true → (s.after (.advance task)).registry.initialized = true := by
      intro change changes spares initialized
      rw [made, changes]
      exact (s.registry.flags_apply change).2 spares initialized
    rw [State.after, activity?_advance before old, if_pos rfl] at activity
    have now := marked a before
    cases follows_turn activity with
    | registers => trivial
    | registered =>
      simp only [made, changeBy?, Option.elim_some]
      rfl
    | enrolls | assigns | requests => exact kept _ rfl (by simp) now
    | assigned =>
      simp only [made, changeBy?, Activity.awaited?]
      exact now
    | _ => cases now

theorem Marked.initialized_of_begunBy (marked : s.Marked task) {id : ContextId}
    (begins : begunBy id s (.advance task) ≠ []) : s.registry.initialized = true := by
  by_contra unmarked
  refine begins (begunBy_of_not_begin fun made => ?_)
  cases touches_of_contextChange? made with
  | request activity => exact unmarked (marked _ activity)

theorem Marked.always (marked : s.Marked task) (old : task < s.taskCount) (n : Nat) :
    s.Always (fun v e => (∃ id, begunBy id v e ≠ []) → v.registry.initialized = true)
      (.replicate n (.advance task)) := by
  induction n generalizing s with
  | zero => trivial
  | succ n inductionHypothesis =>
    rw [List.replicate_succ, always_cons]
    exact ⟨fun ⟨_, begins⟩ => marked.initialized_of_begunBy begins,
      inductionHypothesis (marked.after old) (Nat.lt_of_lt_of_le old (taskCount_le_after s _))⟩

theorem NextFree.marked_create (free : s.NextFree) (ds : List Descriptor) (n : Nat) :
    s.Always (fun v e => (∃ id, begunBy id v e ≠ []) → v.registry.initialized = true)
      (.perform (.create ds) :: .replicate n (.advance s.taskCount)) := by
  refine ⟨?_, Marked.always ?_ (Nat.lt_succ_self _) n⟩
  · rintro ⟨id, begins⟩
    exact absurd (begunBy_of_not_begin (by simp [contextChange?, change?])) begins
  · intro a activity
    have first : (s.begin (.register ds [])).activity? s.taskCount = some (.register ds []) :=
      free.activity?_begin _
    cases first.symm.trans activity
    trivial

/-! ## All sections -/

theorem NextFree.concludesWith_create (free : s.NextFree) (ds : List Descriptor) :
    s.ConcludesWith (.create ds)
      { s.registry.withOpened (·.openedContext s.registry.settings s.files) ds with
        initialized := true }
      .done (firstLaunches s.registry.settings s.files s.registry.store.length ds) := by
  let r := s.registry
  let fresh := r.withOpened (·.freshContext r.settings) ds
  let mainFiles := Registry.mainFiles s.files r.store.length ds
  have registers := free.leads_register r ds [] []
  have marks : Leads s.taskCount (s.atWork fresh (.register [] ([] ++ mainFiles)) [])
      (s.atWork fresh.markInitialized (.assign mainFiles []) []) := free.leads_atWork_alone rfl
  have stored : fresh.markInitialized.store =
      r.store ++ ds.map (·.freshContext fresh.markInitialized.settings) := rfl
  have assigns := free.leads_assign stored [] []
  refine concludesWith_of_leads (registers.trans (marks.trans (assigns.trans ?_)))
  exact (free.leads_assigned _ [] _).trans
    (free.leads_concluded (by simp only [turn, enrollNext]))

/-! ## What is there in the end -/

theorem settings_afterAll (s : State) (es : List Event) :
    (s.afterAll es).registry.settings = s.registry.settings := by
  induction es generalizing s with
  | nil => rfl
  | cons e es inductionHypothesis =>
    rw [afterAll_cons, inductionHypothesis, registry_after]
    cases s.change? e with
    | none => rfl
    | some change => exact s.registry.settings_apply change

/-- The first invocations, with what each of them is told to do. -/
theorem firstLaunches_eq (config : Config) (files : FileTree) (first : ContextId)
    (ds : List Descriptor) :
    firstLaunches config.settings files first ds = (ds.zipIdx first).filterMap (fun e =>
      if e.1.effectiveMainFile files = "" then none
      else
        let target := e.1.root.joinText (e.1.effectiveMainFile files)
        let options := match e.1.options with
          | some own => own
          | none =>
            if config.compiler.options = [] then Compiler.defaultOptions
            else config.compiler.options
        some (.launch e.2 ⟨target, target.parent?.getD target,
          options ++ [Compiler.reportFlag]⟩)) := by
  refine List.filterMap_congr fun e _ => ?_
  by_cases missing : e.1.effectiveMainFile files = ""
  · simp only [Descriptor.firstInvocation?, if_pos missing]
    rfl
  · simp only [Descriptor.firstInvocation?, if_neg missing]
    cases e.1.options <;>
      simp [Compiler.Invocation.ofTarget, Config.settings, Config.CompilerSection.effectiveOptions]

/-- The main file of an open workspace belongs to a workspace, even while it is compiled. -/
theorem NextFree.concludes_resolve_mainFile (free : s.NextFree) {r : Registry}
    (registry : s.registry = r) (support : r.workspaceSupport = true) {root : Path}
    {d : Descriptor} {id : ContextId} {c : Context} {file : String}
    (opened : r.workspaces.get? root = some d) (stands : r.contextAt? root = some id)
    (found : r.context? id = some c) (named : c.mainFile? = some file) :
    ∃ key ∈ r.workspaces.keys, s.Concludes (.resolve (root.joinText file)) r (.owner key) := by
  subst registry
  have there : s.registry.workspaces.contains root = true := by
    rw [← Path.Map.isSome_get?, opened]
    rfl
  obtain ⟨key, member, same⟩ := Path.Map.contains_iff_mem_keys.mp there
  let w : Candidate := ⟨key, id⟩
  have candidate : w ∈ s.registry.candidates :=
    Registry.mem_candidates.mpr ⟨member, (Path.Map.get?_congr _ same).trans stands⟩
  have entered : s.registry.enters (root.joinText file) w = true :=
    (s.registry.enters_iff _ w).mpr (.inr ⟨c, file, found, named, Path.joinText_congr same.symm file⟩)
  obtain ⟨v, owns, owner⟩ := Registry.exists_owner support candidate (.inl entered)
  refine ⟨v.root, (Registry.mem_candidates.mp owns).1, ?_⟩
  rw [← owner]
  exact concludes_resolve_of_unhindered free _ (.inl ⟨w, candidate, entered⟩)

/-- Creating the first workspaces registers each of them with a context of its own, and begins one
invocation for each that has a main file, in their order, and no other.  An invocation compiles the
main file as seen from the folder, in the directory where that lies, with the workspace's own
options, or else the configured ones, or else the usual ones.  None of them begins before the
registry is marked as initialized; and each main file then belongs to a workspace. -/
theorem create_opens_each {s : State} (initial : s.Initial) {config : Config}
    (configured : s.registry.settings = config.settings) {es : List Event}
    (possible : s.Possible es) {ds : List Descriptor}
    (apart : ds.Pairwise fun d e => ¬ d.root.Same e.root) :
    let u := s.afterAll es
    let r := u.registry
    let mainFile (d : Descriptor) := d.effectiveMainFile u.files
    ∃ n after launches,
      let alone : List Event := .perform (.create ds) :: .replicate n (.advance u.taskCount)
      u.Possible alone ∧ u.afterAll alone = launches.foldl begin (u.concluded after .done) ∧
      (∀ earlier d later, ds = earlier ++ d :: later →
        let id := r.store.length + earlier.length
        after.workspaces.get? d.root = some d ∧ after.contextAt? d.root = some id ∧
          r.context? id = none ∧
          after.context? id = some (d.openedContext config.settings u.files)) ∧
      (∀ d ∈ ds, d.Chooses u.files (mainFile d)) ∧
      launches = (ds.zipIdx r.store.length).filterMap (fun e =>
        if mainFile e.1 = "" then none
        else
          let target := e.1.root.joinText (mainFile e.1)
          let options := match e.1.options with
            | some own => own
            | none =>
              if config.compiler.options = [] then Compiler.defaultOptions
              else config.compiler.options
          some (.launch e.2 ⟨target, target.parent?.getD target,
            options ++ [Compiler.reportFlag]⟩)) ∧
      u.Always (fun v e => (∃ id, begunBy id v e ≠ []) → v.registry.initialized = true) alone ∧
      (r.workspaceSupport = true → ∀ d ∈ ds, mainFile d ≠ "" →
        ∃ key ∈ after.workspaces.keys,
          (u.afterAll alone).Concludes (.resolve (d.root.joinText (mainFile d))) after
            (.owner key)) := by
  intro u r mainFile
  have general : r.settings = config.settings := (settings_afterAll s es).trans configured
  have free : u.NextFree := initial.nextFree possible
  obtain ⟨n, possibleAlone, ends⟩ := free.concludesWith_create ds
  rw [show u.registry.settings = config.settings from general] at ends
  have registered earlier d later (split : ds = earlier ++ d :: later) :=
    r.withOpened_of_apart (·.openedContext config.settings u.files) apart split
  refine ⟨n, _, _, possibleAlone, ends, registered, fun d _ => d.chooses_effectiveMainFile u.files,
    firstLaunches_eq config u.files r.store.length ds, free.marked_create ds n, ?_⟩
  intro support d member named
  obtain ⟨earlier, later, split⟩ := List.append_of_mem member
  obtain ⟨described, stands, -, made⟩ := registered earlier d later split
  have freeAfter := initial.nextFree (possible_append.mpr ⟨possible, possibleAlone⟩)
  rw [afterAll_append] at freeAfter
  have registry := (congrArg State.registry ends).trans (registry_foldl_begin _ _)
  exact freeAfter.concludes_resolve_mainFile registry support described stands made
    (Descriptor.mainFile?_openedContext config.settings named)

/-- Files for the folders of four workspaces, and a workspace that is open already. -/
def preparedRun : List Event :=
  let file (t : FileTree) (text : String) : FileTree := t.addFile ⟨text⟩ "" false
  let files := ["/a/a.inc", "/a/main.pwn", "/d/main.inc"].foldl file {}
  [.surround (files.addDirectory ⟨"/d/main.p"⟩) ⟨0, 0⟩,
    .perform (.update [] [{ root := ⟨"/a/."⟩, mainFile := some "old.pwn" }])] ++
    .replicate 6 (.advance 0)

/-- The folder `/a` has a file of its own name, `/b` has none, `/c` is configured, and in `/d` there
is one of the usual names, after a folder of another. -/
theorem create_opens_each_preparedRun :
    let config : Config := { compiler := { options := ["-d3"] } }
    let s : State := { registry := { settings := config.settings } }
    let ds : List Descriptor := [{ root := ⟨"/a"⟩ }, { root := ⟨"/b"⟩, mainFile := some "" },
      { root := ⟨"/c/"⟩, mainFile := some "src/c.pwn", options := some [] }, { root := ⟨"/d"⟩ }]
    s.Initial ∧ s.registry.settings = config.settings ∧ s.Possible preparedRun ∧
      (ds.Pairwise fun d e => ¬ d.root.Same e.root) ∧
      let u := s.afterAll preparedRun
      ∃ n after launches,
        let alone : List Event := .perform (.create ds) :: .replicate n (.advance u.taskCount)
        u.Possible alone ∧ u.afterAll alone = launches.foldl begin (u.concluded after .done) ∧
          launches = [.launch 1 ⟨⟨"/a/a.inc"⟩, ⟨"/a"⟩, ["-d3", "-R"]⟩,
            .launch 3 ⟨⟨"/c/src/c.pwn"⟩, ⟨"/c/src"⟩, ["-R"]⟩,
            .launch 4 ⟨⟨"/d/main.inc"⟩, ⟨"/d"⟩, ["-d3", "-R"]⟩] ∧
          ∃ key ∈ after.workspaces.keys,
            (u.afterAll alone).Concludes (.resolve ⟨"/a/a.inc"⟩) after (.owner key) := by
  intro config s ds
  have initial : s.Initial := ⟨rfl, rfl, rfl, rfl, rfl, rfl, nofun⟩
  have possible : s.Possible preparedRun := by decide +kernel
  have apart : ds.Pairwise fun d e => ¬ d.root.Same e.root := by decide +kernel
  have support : (s.afterAll preparedRun).registry.workspaceSupport = true := by decide +kernel
  have file : ({ root := ⟨"/a"⟩ } : Descriptor).effectiveMainFile (s.afterAll preparedRun).files =
      "a.inc" := by decide +kernel
  have configured : s.registry.settings = config.settings := rfl
  obtain ⟨n, after, launches, possibleAlone, ends, -, -, started, -, owned⟩ :=
    create_opens_each initial configured possible apart
  have resolves := owned support { root := ⟨"/a"⟩ } List.mem_cons_self fun empty =>
    absurd (file.symm.trans empty) (by decide)
  dsimp only at resolves
  rw [file] at resolves
  exact ⟨initial, rfl, possible, apart, n, after, launches, possibleAlone, ends,
    started.trans (by decide +kernel), resolves⟩

end Engine.State

end PawnQuery
