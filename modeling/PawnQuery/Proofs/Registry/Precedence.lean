import PawnQuery.Proofs.Path.Components
import PawnQuery.Proofs.Registry.Sweep

/-!
# The order of workspaces

The open workspaces stand in the order in which they were first registered since they were last
closed: to register one again leaves it where it is.  Of two workspaces that claim a path the
earlier has precedence, and to be entered at the path comes before including it.
-/

namespace PawnQuery

namespace Registry

/-- The change registers a workspace at a path. -/
def Change.Opens (key : Path) : Change → Prop
  | .tables (.register d _) => d.root.Same key
  | _ => False

/-- The change closes the workspace at a path, if one is open there. -/
def Change.Closes (key : Path) : Change → Prop
  | .tables (.detach roots) => ∃ root ∈ roots, root.Same key
  | .tables (.forget owner) => owner.Same key
  | .tables .clear => True
  | _ => False

variable {r : Registry} {key : Path} {change : Change}

theorem Change.not_closes_of_opens (opens : change.Opens key) (other : Path) :
    ¬ change.Closes other := by
  cases change with
  | context id step => cases opens
  | tables change => cases change <;> first | exact id | cases opens

theorem sublist_workspaces_detach (r : Registry) (roots : List Path) :
    (r.detach roots).workspaces.keys.Sublist r.workspaces.keys := by
  simp only [detach_eq, Path.Map.keys_foldl_erase]
  exact List.filter_sublist

theorem contains_workspaces_detach (r : Registry) (roots : List Path) (key : Path) :
    (r.detach roots).workspaces.contains key = true ↔
      (∀ root ∈ roots, ¬ root.Same key) ∧ r.workspaces.contains key = true := by
  rw [detach_eq]
  exact Path.Map.contains_foldl_erase r.workspaces roots key

theorem contains_workspaces_apply (r : Registry) (change : Change) (key : Path) :
    (r.apply change).workspaces.contains key = true ↔
      change.Opens key ∨ ¬ change.Closes key ∧ r.workspaces.contains key = true := by
  have untouched {other : Registry} (same : other.workspaces = r.workspaces) :
      other.workspaces.contains key = true ↔
        False ∨ ¬ False ∧ r.workspaces.contains key = true := by simp [same]
  cases change with
  | context id step => exact untouched (r.tables_changeContext id step).2
  | tables change =>
    cases change with
    | register d files =>
      refine (Path.Map.contains_insert _ _ _ _).trans (or_congr Iff.rfl ?_)
      exact (and_iff_right (id : ¬ False)).symm
    | markInitialized => exact untouched rfl
    | detach roots =>
      simpa [apply, applyTables, Change.Opens, Change.Closes] using
        r.contains_workspaces_detach roots key
    | fetch owner create =>
      refine untouched ?_
      simp only [apply, applyTables]
      obtain ⟨_, _, equal⟩ | ⟨_, _, equal⟩ | ⟨_, _, equal⟩ := r.obtain_cases owner create <;>
        rw [equal]
    | forget owner =>
      simpa [apply, applyTables, forget, Change.Opens, Change.Closes] using
        Path.Map.contains_erase r.workspaces owner key
    | subsume path owner =>
      refine untouched ?_
      simp only [apply, applyTables]
      obtain ⟨_, _, equal⟩ | ⟨_, equal⟩ := r.subsume_cases path owner <;> rw [equal]
    | clear => simp [apply, applyTables, clear, Change.Opens, Change.Closes, Path.Map.contains]

/-- A change that registers a workspace which is not open puts it last; any other change leaves the
order as it is. -/
theorem keys_workspaces_apply (r : Registry) (change : Change) :
    (r.apply change).workspaces.keys.Sublist r.workspaces.keys ∨
      ∃ root, change.Opens root ∧ r.workspaces.contains root = false ∧
        (r.apply change).workspaces.keys = r.workspaces.keys ++ [root] := by
  have untouched {other : Registry} (same : other.workspaces = r.workspaces) :
      other.workspaces.keys.Sublist r.workspaces.keys := by rw [same]
  cases change with
  | context id step => exact .inl (untouched (r.tables_changeContext id step).2)
  | tables change =>
    cases change with
    | register d files =>
      have keys : (r.register d files).1.workspaces.keys = _ := Path.Map.keys_insert _ d.root d
      by_cases stands : r.workspaces.contains d.root = true
      · rw [if_pos stands] at keys
        exact .inl (keys ▸ List.Sublist.refl _)
      · rw [if_neg stands] at keys
        exact .inr ⟨d.root, .refl _, by simpa using stands, keys⟩
    | markInitialized => exact .inl (untouched rfl)
    | detach roots => exact .inl (r.sublist_workspaces_detach roots)
    | fetch owner create =>
      refine .inl (untouched ?_)
      simp only [apply, applyTables]
      obtain ⟨_, _, equal⟩ | ⟨_, _, equal⟩ | ⟨_, _, equal⟩ := r.obtain_cases owner create <;>
        rw [equal]
    | forget owner =>
      refine .inl ?_
      simp only [apply, applyTables, forget, Path.Map.keys_erase]
      exact List.filter_sublist
    | subsume path owner =>
      refine .inl (untouched ?_)
      simp only [apply, applyTables]
      obtain ⟨_, _, equal⟩ | ⟨_, equal⟩ := r.subsume_cases path owner <;> rw [equal]
    | clear => exact .inl (List.nil_sublist _)

theorem sublist_candidates (r : Registry) :
    (r.candidates.map (·.root)).Sublist r.workspaces.keys := by
  unfold candidates
  induction r.workspaces.keys with
  | nil => exact List.Sublist.refl _
  | cons root roots inductionHypothesis =>
    cases stands : r.contextAt? root with
    | none =>
      rw [List.filterMap_cons_none (by rw [stands]; rfl)]
      exact inductionHypothesis.cons _
    | some id =>
      rw [List.filterMap_cons_some (by rw [stands]; rfl)]
      exact inductionHypothesis.cons_cons _

/-! ## Claims on a path -/

/-- The path is the folder of a workspace, or its main file as seen from the folder. -/
def Names (r : Registry) (path : Path) (w : Candidate) : Prop :=
  path.Same w.root ∨ ∃ c file, r.context? w.context = some c ∧ c.mainFile? = some file ∧
    path.Same (w.root.joinText file)

/-- The path lies in the folder of a workspace and is one of the files that the workspace has been
found to include. -/
def Covers (r : Registry) (path : Path) (w : Candidate) : Prop :=
  w.root.components <+: path.components ∧
    ∃ c, r.context? w.context = some c ∧ ∃ file ∈ c.symbols.includedFiles, file.path.Same path

/-- The first in a list that has a property. -/
def IsFirst {α : Type} (P : α → Prop) (all : List α) (a : α) : Prop :=
  ∃ earlier later, all = earlier ++ a :: later ∧ P a ∧ ∀ b ∈ earlier, ¬ P b

theorem enters_iff (r : Registry) (path : Path) (w : Candidate) :
    r.enters path w = true ↔ r.Names path w := by
  unfold enters Names
  rw [isEntryPoint_iff]
  refine or_congr Iff.rfl ?_
  simp only [Option.bind_eq_some_iff, exists_and_left]
  constructor
  · rintro ⟨file, ⟨c, found, named⟩, same⟩
    exact ⟨c, found, file, named, same⟩
  · rintro ⟨c, found, file, named, same⟩
    exact ⟨file, ⟨c, found, named⟩, same⟩

theorem includes_iff (r : Registry) (path : Path) (w : Candidate) :
    r.includes path w = true ↔ r.Covers path w := by
  unfold includes knows Covers Path.startsWith Symbols.SymbolTable.includes
  simp only [Bool.and_eq_true, List.isPrefixOf_iff_prefix, Option.any_eq_true, List.any_eq_true,
    Path.same_iff]

theorem isFirst_of_find? {α : Type} {P : α → Prop} {p : α → Bool} (decides : ∀ a, p a = true ↔ P a)
    {all : List α} {a : α} (found : all.find? p = some a) : IsFirst P all a := by
  obtain ⟨has, earlier, later, split, others⟩ := List.find?_eq_some_iff_append.mp found
  refine ⟨earlier, later, split, (decides a).mp has, fun b member => ?_⟩
  rw [← decides, Bool.not_eq_true]
  simpa using others b member

/-- The owner is the folder of the first workspace that the path names, or else of the first one
that includes it, or else the path itself. -/
theorem owner_precedence (support : r.workspaceSupport = true) (path : Path) :
    (∃ w, IsFirst (r.Names path) r.candidates w ∧ r.owner path = w.root) ∨
      (∀ w ∈ r.candidates, ¬ r.Names path w) ∧
        ((∃ w, IsFirst (r.Covers path) r.candidates w ∧ r.owner path = w.root) ∨
          (∀ w ∈ r.candidates, ¬ r.Covers path w) ∧ r.owner path = path) := by
  unfold owner
  rw [if_pos support]
  cases entered : r.candidates.find? (r.enters path) with
  | some w => exact .inl ⟨w, isFirst_of_find? (r.enters_iff path) entered, rfl⟩
  | none =>
    rw [Option.none_or]
    refine .inr ⟨fun w member names => ?_, ?_⟩
    · exact List.find?_eq_none.mp entered w member ((r.enters_iff path w).mpr names)
    · cases included : r.candidates.find? (r.includes path) with
      | some w => exact .inl ⟨w, isFirst_of_find? (r.includes_iff path) included, rfl⟩
      | none =>
        refine .inr ⟨fun w member covers => ?_, rfl⟩
        exact List.find?_eq_none.mp included w member ((r.includes_iff path w).mpr covers)

end Registry

namespace Engine.State

open PawnQuery.Registry (Candidate Change)

def Opens (s : State) (key : Path) (e : Event) : Prop :=
  ∃ change, s.change? e = some change ∧ change.Opens key

def Closes (s : State) (key : Path) (e : Event) : Prop :=
  ∃ change, s.change? e = some change ∧ change.Closes key

/-- The event of this number has registered a workspace at a path which has not been closed since. -/
def OpenSince (s : State) (es : List Event) (key : Path) (n : Nat) : Prop :=
  ∃ before e later, es = before ++ e :: later ∧ before.length = n ∧
    (s.afterAll before).Opens key e ∧
    ((s.afterAll before).after e).Always (fun s e => ¬ s.Closes key e) later

/-- One workspace has been registered before the other, as long as they have been open. -/
def OpenedBefore (s : State) (es : List Event) (key other : Path) : Prop :=
  ∃ n, s.OpenSince es key n ∧ ∀ m, s.OpenSince es other m → n < m

variable {s : State} {key : Path} {e : Event} {es : List Event} {n : Nat}

theorem OpenSince.lt_length (since : s.OpenSince es key n) : n < es.length := by
  obtain ⟨before, e, later, rfl, rfl, -⟩ := since
  simp

theorem not_closes_of_opens {other : Path} (opens : s.Opens key e) : ¬ s.Closes other e := by
  rintro ⟨change, made, closes⟩
  obtain ⟨same, made', opens⟩ := opens
  obtain rfl := Option.some.inj (made.symm.trans made')
  exact Change.not_closes_of_opens opens other closes

theorem openSince_concat : s.OpenSince (es ++ [e]) key n ↔
    s.OpenSince es key n ∧ ¬ (s.afterAll es).Closes key e ∨
      n = es.length ∧ (s.afterAll es).Opens key e := by
  constructor
  · rintro ⟨before, x, later, split, rfl, opens, stays⟩
    obtain rfl | ⟨later, last, rfl⟩ := later.eq_nil_or_concat
    · obtain ⟨rfl, single⟩ := List.append_inj' split rfl
      obtain rfl := List.singleton_inj.mp single
      exact .inr ⟨rfl, opens⟩
    · rw [List.concat_eq_append] at split stays
      rw [← List.cons_append, ← List.append_assoc] at split
      obtain ⟨rfl, single⟩ := List.append_inj' split rfl
      obtain rfl := List.singleton_inj.mp single
      obtain ⟨stays, ends, -⟩ := always_append.mp stays
      refine .inl ⟨⟨before, x, later, rfl, rfl, opens, stays⟩, ?_⟩
      rwa [afterAll_append]
  · rintro (⟨⟨before, x, later, rfl, rfl, opens, stays⟩, ends⟩ | ⟨rfl, opens⟩)
    · refine ⟨before, x, later ++ [e], by simp, rfl, opens, always_append.mpr ⟨stays, ?_, trivial⟩⟩
      rwa [afterAll_append] at ends
    · exact ⟨es, e, [], rfl, rfl, opens, trivial⟩

theorem contains_workspaces_after (s : State) (key : Path) (e : Event) :
    (s.after e).registry.workspaces.contains key = true ↔
      s.Opens key e ∨ ¬ s.Closes key e ∧ s.registry.workspaces.contains key = true := by
  rw [registry_after]
  unfold Opens Closes
  cases s.change? e with
  | none => simp
  | some change => simpa using s.registry.contains_workspaces_apply change key

theorem keys_workspaces_after (s : State) (e : Event) :
    (s.after e).registry.workspaces.keys.Sublist s.registry.workspaces.keys ∨
      ∃ root, s.Opens root e ∧ s.registry.workspaces.contains root = false ∧
        (s.after e).registry.workspaces.keys = s.registry.workspaces.keys ++ [root] := by
  rw [registry_after]
  unfold Opens
  cases s.change? e with
  | none => exact .inl (List.Sublist.refl _)
  | some change => simpa using s.registry.keys_workspaces_apply change

/-- What is open has been registered and not been closed since. -/
theorem contains_workspaces_iff (initial : s.Initial) (es : List Event) (key : Path) :
    (s.afterAll es).registry.workspaces.contains key = true ↔ ∃ n, s.OpenSince es key n := by
  induction es using List.reverseRecOn with
  | nil =>
    rw [afterAll_nil, initial.workspaces]
    simp [Path.Map.contains, OpenSince]
  | append_singleton es e inductionHypothesis =>
    rw [afterAll_append, afterAll_cons, afterAll_nil, contains_workspaces_after,
      inductionHypothesis]
    simp only [openSince_concat, exists_or, exists_and_right, exists_eq, true_and]
    exact or_comm.trans (or_congr and_comm Iff.rfl)

/-- The open workspaces stand in the order in which they have been registered. -/
theorem pairwise_openedBefore (initial : s.Initial) (es : List Event) :
    (s.afterAll es).registry.workspaces.keys.Pairwise (s.OpenedBefore es) := by
  induction es using List.reverseRecOn with
  | nil =>
    rw [afterAll_nil, initial.workspaces]
    exact .nil
  | append_singleton es e inductionHypothesis =>
    have since : ∀ key, (s.afterAll (es ++ [e])).registry.workspaces.contains key = true →
        ∀ n, s.OpenSince es key n → s.OpenSince (es ++ [e]) key n := by
      intro key stands n before
      rw [afterAll_append, afterAll_cons, afterAll_nil, contains_workspaces_after] at stands
      refine openSince_concat.mpr (.inl ⟨before, ?_⟩)
      exact stands.elim not_closes_of_opens fun stays => stays.1
    have kept : ∀ key ∈ (s.afterAll (es ++ [e])).registry.workspaces.keys, ∀ other,
        s.OpenedBefore es key other → s.OpenedBefore (es ++ [e]) key other := by
      rintro key member other ⟨n, opened, earlier⟩
      refine ⟨n, since key (Path.Map.contains_iff_mem_keys.mpr ⟨key, member, .refl _⟩) n opened, ?_⟩
      intro m later
      obtain ⟨before, -⟩ | ⟨rfl, -⟩ := openSince_concat.mp later
      · exact earlier m before
      · exact opened.lt_length
    have orderedBefore : ∀ keys : List Path, keys.Pairwise (s.OpenedBefore es) →
        keys.Sublist (s.afterAll (es ++ [e])).registry.workspaces.keys →
        keys.Pairwise (s.OpenedBefore (es ++ [e])) := fun keys ordered inside =>
      ordered.imp_of_mem fun member _ => kept _ (inside.subset member) _
    have moves := (s.afterAll es).keys_workspaces_after e
    rw [← afterAll_nil ((s.afterAll es).after e), ← afterAll_cons, ← afterAll_append] at moves
    obtain fewer | ⟨root, opens, absent, keys⟩ := moves
    · exact orderedBefore _ (inductionHypothesis.sublist fewer) (List.Sublist.refl _)
    · rw [keys]
      refine List.pairwise_append.mpr ⟨orderedBefore _ inductionHypothesis ?_,
        List.pairwise_singleton _ _, ?_⟩
      · rw [keys]
        exact List.sublist_append_left _ _
      · intro key member last lastMember
        obtain rfl := List.mem_singleton.mp lastMember
        have stands := Path.Map.contains_iff_mem_keys.mpr ⟨key, member, .refl _⟩
        obtain ⟨n, opened⟩ := (contains_workspaces_iff initial es key).mp stands
        refine ⟨n, openSince_concat.mpr (.inl ⟨opened, not_closes_of_opens opens⟩), ?_⟩
        intro m later
        obtain ⟨before, -⟩ | ⟨rfl, -⟩ := openSince_concat.mp later
        · have found := (contains_workspaces_iff initial es last).mpr ⟨m, before⟩
          exact absurd found (by simp [absent])
        · exact opened.lt_length

/-- In a state in which no registered workspace runs, asking for the owner of a path changes nothing
and gives the folder of the first workspace whose folder or main file the path is; if there is none,
the folder of the first workspace around the path that includes it; else the path.  The workspaces
that count are those that have been registered, have not been closed since and have a context under
their folders, and they come in the order of their first registration since they were last closed. -/
theorem resolve_by_precedence {s : State} (initial : s.Initial) {es : List Event}
    (possible : s.Possible es) (support : (s.afterAll es).registry.workspaceSupport = true)
    (idle : ∀ w ∈ (s.afterAll es).registry.candidates, (s.afterAll es).isRunning w.context = false)
    (path : Path) :
    let u := s.afterAll es
    let r := u.registry
    let key := r.owner path
    u.Concludes (.resolve path) r (.owner key) ∧
      ((∃ w, Registry.IsFirst (r.Names path) r.candidates w ∧ key = w.root) ∨
        (∀ w ∈ r.candidates, ¬ r.Names path w) ∧
          ((∃ w, Registry.IsFirst (r.Covers path) r.candidates w ∧ key = w.root) ∨
            (∀ w ∈ r.candidates, ¬ r.Covers path w) ∧ key = path)) ∧
      (r.candidates.Pairwise fun v w => s.OpenedBefore es v.root w.root) ∧
      ∀ root id, (∃ w ∈ r.candidates, w.root.Same root ∧ w.context = id) ↔
        (∃ n, s.OpenSince es root n) ∧ r.contextAt? root = some id := by
  intro u r key
  have unhindered : u.Unhindered path r.candidates := by
    intro earlier w later split _
    have member : w ∈ r.candidates.filter fun w => path.startsWith w.root :=
      split ▸ List.mem_append_right _ List.mem_cons_self
    exact idle w (List.mem_of_mem_filter member)
  refine ⟨?_, r.owner_precedence support path, ?_, ?_⟩
  · exact concludes_resolve_of_unhindered (initial.nextFree possible) path (.inr unhindered)
  · exact List.pairwise_map.mp ((pairwise_openedBefore initial es).sublist r.sublist_candidates)
  · intro root id
    rw [← contains_workspaces_iff initial es root, Path.Map.contains_iff_mem_keys]
    constructor
    · rintro ⟨w, member, same, rfl⟩
      obtain ⟨opened, stands⟩ := Registry.mem_candidates.mp member
      exact ⟨⟨w.root, opened, same⟩, (Path.Map.get?_congr _ same).symm.trans stands⟩
    · rintro ⟨⟨key, member, same⟩, stands⟩
      exact ⟨⟨key, id⟩, Registry.mem_candidates.mpr
        ⟨member, (Path.Map.get?_congr _ same).trans stands⟩, same, rfl⟩

/-- Two workspaces, one in the folder of the other, both include a file; the outer one is opened
first, then closed and opened again. -/
def reopeningRun : List Event :=
  let shared := "\x7b\"kind\":\"includedFiles\",\"payload\":[\"/a/b/shared.inc\"]\x7d"
  let moves (task : TaskId) (n : Nat) : List Event := .replicate n (.advance task)
  let outer : Workspace.Descriptor := { root := ⟨"/a"⟩, mainFile := some "main.pwn" }
  let inner : Workspace.Descriptor := { root := ⟨"/a/b"⟩, mainFile := some "main.pwn" }
  [.instruct (.record ⟨"/a/main.pwn"⟩ (.ofTexts shared "")),
    .instruct (.record ⟨"/a/b/main.pwn"⟩ (.ofTexts shared "")),
    .perform (.create [outer, inner])] ++ moves 0 9 ++ moves 1 4 ++ moves 2 4 ++
    [.perform (.update [⟨"/a"⟩] [outer])] ++ moves 3 6 ++ moves 4 4

/-- By then the inner workspace is the first. -/
theorem resolve_by_precedence_reopeningRun :
    Initial {} ∧ Possible {} reopeningRun ∧
      let u := afterAll {} reopeningRun
      u.registry.workspaceSupport = true ∧
        (∀ w ∈ u.registry.candidates, u.isRunning w.context = false) ∧
        u.registry.candidates.map (·.root) = [⟨"/a/b"⟩, ⟨"/a"⟩] ∧
        (u.registry.candidates.Pairwise fun v w => OpenedBefore {} reopeningRun v.root w.root) ∧
        u.Concludes (.resolve ⟨"/a/b/shared.inc"⟩) u.registry (.owner ⟨"/a/b"⟩) := by
  have possible : Possible {} reopeningRun := by decide +kernel
  have support : (afterAll {} reopeningRun).registry.workspaceSupport = true := by decide +kernel
  have idle : ∀ w ∈ (afterAll {} reopeningRun).registry.candidates,
      (afterAll {} reopeningRun).isRunning w.context = false := by decide +kernel
  have owner : (afterAll {} reopeningRun).registry.owner ⟨"/a/b/shared.inc"⟩ = ⟨"/a/b"⟩ := by
    decide +kernel
  obtain ⟨concludes, -, ordered, -⟩ :=
    resolve_by_precedence initial_default possible support idle ⟨"/a/b/shared.inc"⟩
  rw [owner] at concludes
  exact ⟨initial_default, possible, support, idle, by decide +kernel, ordered, concludes⟩

end Engine.State

end PawnQuery
