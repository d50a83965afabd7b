import PawnQuery.Proofs.Registry.Precedence
import PawnQuery.Proofs.Registry.Stability

/-!
# How a path is spelled

The owner of a path is told by the path's components alone, so another spelling of a path has the
same owner and the same context.  An owner is its own owner, with one exception: the folder of a
workspace that is the main file of a workspace registered earlier goes to that one.
-/

namespace PawnQuery

namespace Registry

variable {r : Registry} {p q : Path}

/-! ## Owners -/

theorem enters_respelled (same : p.Same q) : r.enters p = r.enters q := by
  funext w
  rw [Bool.eq_iff_iff, enters_iff, enters_iff]
  unfold Names Path.Same
  rw [same]

theorem includes_respelled (same : p.Same q) : r.includes p = r.includes q := by
  funext w
  rw [Bool.eq_iff_iff, includes_iff, includes_iff]
  unfold Covers Path.Same
  rw [same]

/-- Two spellings of a path have one owner, or each is its own. -/
theorem owner_respelled (same : p.Same q) :
    r.owner p = r.owner q ∨ r.owner p = p ∧ r.owner q = q := by
  unfold owner
  rw [enters_respelled same, includes_respelled same]
  split
  · cases (r.candidates.find? (r.enters q)).or (r.candidates.find? (r.includes q)) with
    | some w => exact .inl rfl
    | none => exact .inr ⟨rfl, rfl⟩
  · exact .inr ⟨rfl, rfl⟩

theorem same_owner_respelled (same : p.Same q) : (r.owner p).Same (r.owner q) := by
  obtain equal | ⟨own, ownToo⟩ := r.owner_respelled same
  · rw [equal]
    exact .refl _
  · rw [own, ownToo]
    exact same

/-- The main file of a workspace, as seen from its folder, is this path. -/
def HasMainFile (r : Registry) (w : Candidate) (path : Path) : Prop :=
  ∃ c file, r.context? w.context = some c ∧ c.mainFile? = some file ∧
    path.Same (w.root.joinText file)

/-- The owner of an owner is that owner, unless a candidate before it has it as its main file. -/
theorem owner_owner (distinct : r.workspaces.Distinct) (path : Path) :
    r.owner (r.owner path) = r.owner path ∨ r.workspaceSupport = true ∧
      ∃ w earlier v later, r.owner path = w.root ∧ r.candidates = earlier ++ v :: later ∧
        w ∈ later ∧ r.HasMainFile v w.root := by
  obtain own | ⟨w, member, owned, -⟩ := r.owner_cases path
  · exact .inl (by rw [own, own])
  by_cases support : r.workspaceSupport = true
  · rw [owned]
    obtain ⟨v, ⟨earlier, later, split, names, first⟩, equal⟩ | ⟨nobody, -⟩ :=
      r.owner_precedence support w.root
    · obtain same | mainFile := names
      · refine .inl (equal.trans ?_)
        have opened : v.root ∈ r.workspaces.keys :=
          (mem_candidates.mp (split ▸ List.mem_append_right _ List.mem_cons_self)).1
        exact distinct.eq_of_same opened (mem_candidates.mp member).1 same.symm
      · rw [split, List.mem_append, List.mem_cons] at member
        obtain before | rfl | after := member
        · exact absurd (.inl (.refl _)) (first w before)
        · exact .inl equal
        · exact .inr ⟨support, w, earlier, v, later, rfl, split, after, mainFile⟩
    · exact absurd (.inl (.refl _)) (nobody w member)
  · have own : ∀ path, r.owner path = path := fun path => by rw [owner, if_neg support]
    exact .inl (own _)

/-- A workspace does not own its folder if the folder is the main file of a workspace before it. -/
theorem not_same_owner_of_hasMainFile (support : r.workspaceSupport = true)
    (distinct : r.workspaces.Distinct) {earlier later : List Candidate} {v w : Candidate}
    (split : r.candidates = earlier ++ v :: later) (after : w ∈ later)
    (mainFile : r.HasMainFile v w.root) : ¬ (r.owner w.root).Same w.root := by
  have roots : r.candidates.Pairwise fun u w => ¬ u.root.Same w.root :=
    List.pairwise_map.mp (distinct.sublist r.sublist_candidates)
  have apart : ∀ u ∈ earlier ++ [v], ¬ u.root.Same w.root := by
    rw [split, List.append_cons] at roots
    exact fun u before => (List.pairwise_append.mp roots).2.2 u before w after
  have entered : ∃ u ∈ earlier ++ [v], r.candidates.find? (r.enters w.root) = some u := by
    have enters : r.enters w.root v = true := (r.enters_iff _ v).mpr (.inr mainFile)
    rw [split, List.find?_append, List.find?_cons_of_pos enters]
    cases found : earlier.find? (r.enters w.root) with
    | some u => exact ⟨u, List.mem_append_left _ (List.mem_of_find?_eq_some found), rfl⟩
    | none => exact ⟨v, List.mem_append_right _ (List.mem_singleton_self v), rfl⟩
  obtain ⟨u, before, found⟩ := entered
  rw [owner, if_pos support, found]
  exact apart u before

/-! ## Contexts -/

theorem obtain_of_found {key : Path} {id : ContextId} (found : r.contextAt? key = some id)
    (create : Bool) : r.obtain key create = (r, some id) := by
  rw [Registry.obtain, found]

theorem obtain_respelled {key other : Path} (same : key.Same other) (create : Bool) :
    (r.obtain key create).2 = (r.obtain other create).2 := by
  unfold Registry.obtain contextAt?
  rw [Path.Map.get?_congr _ same]
  split
  · rfl
  · split <;> rfl

theorem Keyed.context?_obtain (keyed : r.Keyed) (key : Path) (create : Bool) {path : Path}
    {id : ContextId} (found : r.contextAt? path = some id) :
    (r.obtain key create).1.context? id = r.context? id := by
  obtain ⟨c, known, -⟩ := keyed path id found
  obtain ⟨inside, -⟩ := List.getElem?_eq_some_iff.mp known
  obtain ⟨_, _, equal⟩ | ⟨_, _, equal⟩ | ⟨_, _, equal⟩ := r.obtain_cases key create <;> rw [equal]
  exact List.getElem?_append_left inside

/-- What is a candidate after a look-up was one before, or its context has just been made. -/
theorem candidate_of_obtain {key : Path} {create : Bool} {w : Candidate}
    (member : w ∈ (r.obtain key create).1.candidates) :
    w ∈ r.candidates ∨ key.Same w.root ∧
      (r.obtain key create).1.context? w.context = some (.standalone key r.settings) := by
  obtain ⟨_, _, equal⟩ | ⟨_, _, equal⟩ | ⟨_, _, equal⟩ := r.obtain_cases key create <;>
    rw [equal] at member
  · exact .inl member
  · exact .inl member
  · obtain ⟨opened, stands⟩ := mem_candidates.mp member
    simp only [contextAt?, Path.Map.get?_insert] at stands
    split at stands
    next same =>
      refine .inr ⟨same, ?_⟩
      rw [equal, ← Option.some.inj stands]
      exact List.getElem?_concat_length
    next => exact .inl (mem_candidates.mpr ⟨opened, stands⟩)

/-- After the context of a path's owner has been looked up, the owner of the path in another
spelling is the same one. -/
theorem Keyed.same_owner_obtain (keyed : r.Keyed) (same : p.Same q) (create : Bool) :
    (r.owner p).Same ((r.obtain (r.owner p) create).1.owner q) := by
  obtain ⟨_, _, equal⟩ | ⟨_, _, equal⟩ | ⟨missing, rfl, made⟩ := r.obtain_cases (r.owner p) create
  · rw [equal]
    exact same_owner_respelled same
  · rw [equal]
    exact same_owner_respelled same
  have unowned : ∀ w ∈ r.candidates, r.owner p ≠ w.root := fun w member owned => by
    rw [owned, (mem_candidates.mp member).2] at missing
    cases missing
  have own : r.owner p = p := by
    obtain own | ⟨w, member, owned, -⟩ := r.owner_cases p
    · exact own
    · exact absurd owned (unowned w member)
  have routes : (r.obtain (r.owner p) true).1.workspaceSupport = r.workspaceSupport := by rw [made]
  by_cases support : r.workspaceSupport = true
  · obtain ownToo | ⟨w, member, owned, owns⟩ := (r.obtain (r.owner p) true).1.owner_cases q
    · rw [ownToo, own]
      exact same
    · rw [owned]
      obtain old | ⟨fresh, -⟩ := candidate_of_obtain member
      · have kept := keyed.context?_obtain (r.owner p) true (mem_candidates.mp old).2
        have ownsBefore : r.enters p w = true ∨ r.includes p w = true := by
          rw [enters_respelled same, includes_respelled same]
          simpa only [Registry.enters, Registry.includes, knows, kept] using owns
        obtain ⟨v, candidate, ownedBefore⟩ := exists_owner support old ownsBefore
        exact absurd ownedBefore (unowned v candidate)
      · exact fresh
  · have ownToo : (r.obtain (r.owner p) true).1.owner q = q := by
      rw [owner, if_neg (by rw [routes]; exact support)]
    rw [ownToo, own]
    exact same

end Registry

namespace Engine.State

open PawnQuery.Registry (Candidate)

variable {s : State} {es : List Event} {p q : Path}

/-- Files are routed to workspaces, and the path is the folder of one that another workspace,
registered earlier, has as its main file. -/
def TakenOver (s : State) (es : List Event) (path : Path) : Prop :=
  let r := (s.afterAll es).registry
  r.workspaceSupport = true ∧ ∃ w ∈ r.candidates, path = w.root ∧
    ∃ v ∈ r.candidates, s.OpenedBefore es v.root w.root ∧ r.HasMainFile v w.root

theorem OpenedBefore.asymm {key other : Path} (before : s.OpenedBefore es key other) :
    ¬ s.OpenedBefore es other key := by
  rintro ⟨m, since, later⟩
  obtain ⟨n, sinceToo, laterToo⟩ := before
  exact Nat.lt_asymm (later n sinceToo) (laterToo m since)

/-- Asking for the context of a path's owner, when no workspace has to be waited for, looks up the
owner that can be read off the registry. -/
theorem concludes_get_of_unhindered (free : s.NextFree) (path : Path) (create : Bool)
    (unhindered : (∃ w ∈ s.registry.candidates, s.registry.enters path w = true) ∨
      s.Unhindered path s.registry.candidates) :
    s.Concludes (.get path create) (s.registry.obtain (s.registry.owner path) create).1
      (.context (s.registry.obtain (s.registry.owner path) create).2) :=
  concludes_of_leads
    ((leads_resolve free path (.fetch create) unhindered).trans (free.leads_of_ended rfl))

theorem concludes_get_of_found (free : s.NextFree) {path : Path} {id : ContextId}
    (stands : s.registry.contextAt? (s.registry.owner path) = some id) (create : Bool)
    (unhindered : s.Unhindered path s.registry.candidates) :
    s.Concludes (.get path create) s.registry (.context (some id)) := by
  have concludes := concludes_get_of_unhindered free path create (.inr unhindered)
  rwa [Registry.obtain_of_found stands] at concludes

theorem idle_of_obtain (keyed : s.registry.Keyed)
    (idle : ∀ w ∈ s.registry.candidates, s.isRunning w.context = false) {key : Path}
    {create : Bool} {answer : Answer} :
    let r := (s.registry.obtain key create).1
    ∀ w ∈ r.candidates, (s.concluded r answer).isRunning w.context = false := by
  intro r w member
  obtain ⟨-, stands⟩ := Registry.mem_candidates.mp member
  obtain old | ⟨-, made⟩ := Registry.candidate_of_obtain member
  · have kept : r.context? w.context = s.registry.context? w.context :=
      keyed.context?_obtain _ _ (Registry.mem_candidates.mp old).2
    have still := idle w old
    unfold isRunning at still ⊢
    rwa [← kept] at still
  · exact (isRunning_of_found (s := s.concluded r answer) made).trans rfl

/-- The owner of an owner is the owner itself, unless that has been taken over. -/
theorem owner_owner_of_run (initial : s.Initial) (es : List Event) (path : Path) :
    let r := (s.afterAll es).registry
    (¬ s.TakenOver es (r.owner path) → r.owner (r.owner path) = r.owner path) ∧
      (s.TakenOver es (r.owner path) → ¬ (r.owner (r.owner path)).Same (r.owner path)) := by
  intro r
  have distinct : r.workspaces.Distinct :=
    (coherent_afterAll initial.coherent initial.keyed es).workspaceKeys
  have order : r.candidates.Pairwise fun v w => s.OpenedBefore es v.root w.root :=
    List.pairwise_map.mp ((pairwise_openedBefore initial es).sublist r.sublist_candidates)
  constructor
  · intro spared
    obtain equal | ⟨support, w, earlier, v, later, owned, split, after, mainFile⟩ :=
      Registry.owner_owner distinct path
    · exact equal
    · rw [split, List.pairwise_append, List.pairwise_cons] at order
      refine absurd ⟨support, w, ?_, owned, v, ?_, order.2.1.1 w after, mainFile⟩ spared <;>
        simp only [show (s.afterAll es).registry.candidates = _ from split]
      · exact List.mem_append_right _ (List.mem_cons_of_mem _ after)
      · exact List.mem_append_right _ List.mem_cons_self
  · rintro ⟨support, w, member, owned, v, candidate, earlier, mainFile⟩
    rw [owned]
    obtain ⟨before, later, split⟩ := List.append_of_mem candidate
    rw [show r.candidates = _ from split, List.pairwise_append, List.pairwise_cons] at order
    rw [split, List.mem_append, List.mem_cons] at member
    obtain first | rfl | after := member
    · exact absurd (order.2.2 w first v List.mem_cons_self) earlier.asymm
    · exact absurd earlier earlier.asymm
    · exact Registry.not_same_owner_of_hasMainFile support distinct split after mainFile

/-- While no registered workspace runs, two spellings of a path have the same owner and the same
context, whether they are asked for in the same state or one after the other.  The owner of an owner
is the owner itself, unless it is the folder of a workspace that is the main file of another one
registered earlier. -/
theorem respelled_paths_agree (initial : s.Initial) (possible : s.Possible es)
    (idle : ∀ w ∈ (s.afterAll es).registry.candidates, (s.afterAll es).isRunning w.context = false)
    (same : p.Same q) :
    let u := s.afterAll es
    let r := u.registry
    let key := r.owner p
    (u.Concludes (.resolve p) r (.owner key) ∧ u.Concludes (.resolve q) r (.owner (r.owner q)) ∧
        key.Same (r.owner q)) ∧
      (∀ create, let after := (r.obtain key create).1
        let found := (r.obtain key create).2
        u.Concludes (.get p create) after (.context found) ∧
          (∃ other, u.Concludes (.get q create) other (.context found)) ∧
          (found ≠ none → ∀ again,
            (u.concluded after (.context found)).Concludes (.get q again) after (.context found))) ∧
      (u.concluded r (.owner key)).Concludes (.resolve key) r (.owner (r.owner key)) ∧
        (¬ s.TakenOver es key → r.owner key = key) ∧
        (s.TakenOver es key → ¬ (r.owner key).Same key) := by
  intro u r key
  have free : u.NextFree := initial.nextFree possible
  have keyed : r.Keyed := keyed_afterAll initial.keyed es
  have unhindered : ∀ path, u.Unhindered path r.candidates := unhindered_of_idle idle
  have sameOwner : key.Same (r.owner q) := Registry.same_owner_respelled same
  refine ⟨⟨?_, ?_, sameOwner⟩, ?_, ?_, owner_owner_of_run initial es p⟩
  · exact concludes_resolve_of_unhindered free p (.inr (unhindered p))
  · exact concludes_resolve_of_unhindered free q (.inr (unhindered q))
  · intro create after found
    refine ⟨concludes_get_of_unhindered free p create (.inr (unhindered p)),
      ⟨(r.obtain (r.owner q) create).1, ?_⟩, ?_⟩
    · have agree : found = (r.obtain (r.owner q) create).2 :=
        Registry.obtain_respelled sameOwner create
      rw [agree]
      exact concludes_get_of_unhindered free q create (.inr (unhindered q))
    · intro something again
      obtain ⟨id, made⟩ := Option.ne_none_iff_exists'.mp something
      have stands : after.contextAt? (after.owner q) = some id := by
        have stillSame : key.Same (after.owner q) := keyed.same_owner_obtain same create
        rw [Registry.contextAt?, ← Path.Map.get?_congr _ stillSame, ← made]
        exact r.contextAt?_obtain key create
      rw [made]
      refine concludes_get_of_found (s := u.concluded after (.context (some id)))
        (free.concluded _ _) stands again (unhindered_of_idle ?_ q)
      exact idle_of_obtain keyed idle
  · exact concludes_resolve_of_unhindered (free.concluded r _) key
      (.inr (unhindered_of_idle idle key))

/-- A workspace in the folder of another one includes a script, and its folder is the other one's
main file. -/
def nestedRun : List Event :=
  let report := "\x7b\"kind\":\"includedFiles\",\"payload\":[\"/a/b/x.inc\"]\x7d"
  let moves (task : TaskId) (n : Nat) : List Event := .replicate n (.advance task)
  [.instruct (.record ⟨"/a/b/main.pwn"⟩ (.ofTexts report "")),
    .perform (.create [{ root := ⟨"/a"⟩, mainFile := some "b" },
      { root := ⟨"/a/b"⟩, mainFile := some "main.pwn" }])] ++ moves 0 9 ++ moves 1 4 ++ moves 2 4

/-- The script goes to the inner workspace however it is spelled, and the folder of that one to the
outer workspace. -/
theorem respelled_paths_agree_nestedRun :
    Initial {} ∧ Possible {} nestedRun ∧
      let u := afterAll {} nestedRun
      (∀ w ∈ u.registry.candidates, u.isRunning w.context = false) ∧
        (⟨"/a//b/./x.inc"⟩ : Path).Same ⟨"/a/b/x.inc"⟩ ∧
        u.Concludes (.resolve ⟨"/a//b/./x.inc"⟩) u.registry (.owner ⟨"/a/b"⟩) ∧
        u.Concludes (.get ⟨"/a//b/./x.inc"⟩ true) u.registry (.context (some 1)) ∧
        (u.concluded u.registry (.context (some 1))).Concludes (.get ⟨"/a/b/x.inc"⟩ false) u.registry
          (.context (some 1)) ∧
        (u.concluded u.registry (.owner ⟨"/a/b"⟩)).Concludes (.resolve ⟨"/a/b"⟩) u.registry
          (.owner ⟨"/a"⟩) := by
  have possible : Possible {} nestedRun := by decide +kernel
  have idle : ∀ w ∈ (afterAll {} nestedRun).registry.candidates,
      (afterAll {} nestedRun).isRunning w.context = false := by decide +kernel
  have same : (⟨"/a//b/./x.inc"⟩ : Path).Same ⟨"/a/b/x.inc"⟩ := by decide +kernel
  have owner : (afterAll {} nestedRun).registry.owner ⟨"/a//b/./x.inc"⟩ = ⟨"/a/b"⟩ := by
    decide +kernel
  have taken : (afterAll {} nestedRun).registry.owner ⟨"/a/b"⟩ = ⟨"/a"⟩ := by decide +kernel
  have found : (afterAll {} nestedRun).registry.obtain ⟨"/a/b"⟩ true =
      ((afterAll {} nestedRun).registry, some 1) := Registry.obtain_of_found (by decide +kernel) true
  obtain ⟨⟨resolves, -, -⟩, gets, resolvesAgain, -⟩ :=
    respelled_paths_agree initial_default possible idle same
  obtain ⟨first, -, second⟩ := gets true
  rw [owner, taken] at resolvesAgain
  rw [owner] at resolves
  rw [owner, found] at first second
  dsimp only at first second
  exact ⟨initial_default, possible, idle, same, resolves, first,
    second (Option.some_ne_none 1) false, resolvesAgain⟩

end Engine.State

end PawnQuery
