import PawnQuery.Proofs.Registry.Owner
import PawnQuery.Proofs.Registry.Tables

/-!
# A sweep on its own

A sweep looks up the owners of all scripts that have contexts, one after the other, and drops the
contexts of those that a workspace owns.  What it drops is no workspace's context, so the owners of
the scripts that come later do not change under its hands: it is as if all owners were looked up at
once.  After the sweep every script that has a context is its own owner, and another sweep finds
nothing to do.
-/

namespace PawnQuery

namespace Registry

/-- The registry after each of these paths has, in turn, lost its context to its owner. -/
def subsumeAll (r : Registry) (keys : List Path) : Registry :=
  keys.foldl (fun r key => r.subsume key (r.owner key)) r

@[simp] theorem subsumeAll_nil (r : Registry) : r.subsumeAll [] = r := rfl

theorem subsumeAll_cons (r : Registry) (key : Path) (keys : List Path) :
    r.subsumeAll (key :: keys) = (r.subsume key (r.owner key)).subsumeAll keys := rfl

/-- The context is a workspace's, or nobody else owns its path. -/
def keeps (r : Registry) (e : Path × ContextId) : Bool :=
  r.isWorkspace e.2 || (r.owner e.1).same e.1

/-- The registry without the contexts of scripts that have another owner. -/
def swept (r : Registry) : Registry :=
  { r with registered := ⟨r.registered.entries.filter r.keeps⟩ }

def without (r : Registry) (key : Path) : Registry :=
  { r with registered := r.registered.erase key }

/-! ## What owners depend on -/

theorem mem_candidates {r : Registry} {w : Candidate} :
    w ∈ r.candidates ↔ w.root ∈ r.workspaces.keys ∧ r.contextAt? w.root = some w.context := by
  unfold candidates
  rw [List.mem_filterMap]
  constructor
  · rintro ⟨root, member, found⟩
    obtain ⟨id, stands, rfl⟩ := Option.map_eq_some_iff.mp found
    exact ⟨member, stands⟩
  · rintro ⟨member, stands⟩
    exact ⟨w.root, member, by rw [stands]; rfl⟩

theorem owner_congr {r other : Registry} (support : other.workspaceSupport = r.workspaceSupport)
    (store : other.store = r.store) (candidates : other.candidates = r.candidates) (path : Path) :
    other.owner path = r.owner path := by
  have enters : other.enters path = r.enters path := by
    funext w
    simp only [Registry.enters, context?, store]
  have includes : other.includes path = r.includes path := by
    funext w
    simp only [Registry.includes, knows, context?, store]
  unfold owner
  rw [support, candidates, enters, includes]

theorem candidates_without {r : Registry} {key : Path}
    (closed : r.workspaces.contains key = false) : (r.without key).candidates = r.candidates := by
  unfold candidates
  refine List.filterMap_congr fun root member => ?_
  have apart : ¬ key.Same root := by
    intro same
    have opened : r.workspaces.contains key = true :=
      Path.Map.contains_iff_mem_keys.mpr ⟨root, member, same.symm⟩
    rw [closed] at opened
    cases opened
  exact congrArg _ (Path.Map.get?_erase_of_not_same _ apart)

theorem Bound.without {r : Registry} (bound : r.Bound) {key : Path}
    (closed : r.workspaces.contains key = false) : (r.without key).Bound := by
  intro root member
  obtain ⟨id, stands, workspace⟩ := bound root member
  have candidate : (⟨root, id⟩ : Candidate) ∈ (r.without key).candidates := by
    rw [candidates_without closed]
    exact mem_candidates.mpr ⟨member, stands⟩
  exact ⟨id, (mem_candidates.mp candidate).2, workspace⟩

theorem Bound.subsume_owner {r : Registry} (bound : r.Bound) (key : Path) :
    r.subsume key (r.owner key) = if (r.owner key).same key then r else r.without key := by
  unfold subsume
  split
  · rfl
  next other =>
    obtain own | ⟨w, member, owns, -⟩ := r.owner_cases key
    · rw [own] at other
      exact absurd (Path.same_iff.mpr (Path.Same.refl key)) other
    · have binds : r.bindsWorkspace (r.owner key) = true := by
        rw [owns]
        exact bindsWorkspace_iff.mpr (bound w.root (mem_candidates.mp member).1)
      exact if_pos binds

/-! ## One path after the other -/

/-- A sweep touches nothing that owners depend on. -/
theorem Bound.subsumeAll {r : Registry} (bound : r.Bound) {keys : List Path}
    (closed : ∀ key ∈ keys, r.workspaces.contains key = false) :
    (r.subsumeAll keys).candidates = r.candidates ∧
      r.subsumeAll keys =
        { r with
          registered := ⟨r.registered.entries.filter fun e =>
            !keys.any fun key => e.1.same key && !(r.owner key).same key⟩ } := by
  induction keys generalizing r with
  | nil => exact ⟨rfl, by simp⟩
  | cons key keys inductionHypothesis =>
    obtain ⟨closedKey, closedKeys⟩ := List.forall_mem_cons.mp closed
    have first : r.subsumeAll (key :: keys) =
        (if (r.owner key).same key then r else r.without key).subsumeAll keys := by
      rw [← bound.subsume_owner, subsumeAll_cons]
    rw [first]
    by_cases own : (r.owner key).same key = true
    · rw [if_pos own]
      simpa [own] using inductionHypothesis bound closedKeys
    · rw [if_neg own]
      have candidates := candidates_without closedKey
      have owners : ∀ path, (r.without key).owner path = r.owner path :=
        owner_congr rfl rfl candidates
      obtain ⟨sameCandidates, equal⟩ := inductionHypothesis (bound.without closedKey) closedKeys
      refine ⟨sameCandidates.trans candidates, equal.trans ?_⟩
      simp only [owners]
      simp only [Registry.without, Path.Map.erase, List.filter_filter]
      congr 3
      funext e
      simp [own, Bool.and_comm]

/-! ## All scripts that have contexts -/

theorem mem_standaloneKeys {r : Registry} {key : Path} :
    key ∈ r.standaloneKeys ↔ ∃ id, (key, id) ∈ r.registered.entries ∧ r.isWorkspace id = false := by
  simp [standaloneKeys]

theorem Bound.closed_of_standalone {r : Registry} (bound : r.Bound)
    (distinct : r.registered.Distinct) : ∀ key ∈ r.standaloneKeys,
      r.workspaces.contains key = false := by
  intro key member
  obtain ⟨id, entry, script⟩ := mem_standaloneKeys.mp member
  rw [Bool.eq_false_iff]
  intro opened
  obtain ⟨other, found, workspace⟩ := bindsWorkspace_iff.mp (bound_iff.mp bound key opened)
  cases (distinct.get?_of_mem entry).symm.trans found
  rw [script] at workspace
  cases workspace

/-- A sweep drops the contexts of the scripts that have another owner, and nothing else. -/
theorem Bound.subsumeAll_standaloneKeys {r : Registry} (bound : r.Bound)
    (distinct : r.registered.Distinct) : r.subsumeAll r.standaloneKeys = r.swept := by
  obtain ⟨-, equal⟩ := bound.subsumeAll (bound.closed_of_standalone distinct)
  rw [equal, swept]
  congr 2
  refine List.filter_congr fun e member => ?_
  rw [← Bool.not_inj_iff, Bool.not_not, Bool.eq_iff_iff, List.any_eq_true]
  simp only [keeps, Bool.not_or, Bool.and_eq_true, Bool.not_eq_true']
  constructor
  · rintro ⟨key, standalone, same, other⟩
    obtain ⟨id, entry, script⟩ := mem_standaloneKeys.mp standalone
    have equal : e.1 = key := distinct.eq_of_same (List.mem_map_of_mem member)
      (List.mem_map_of_mem entry) (Path.same_iff.mp same)
    have found : r.registered.get? e.1 = some e.2 := distinct.get?_of_mem member
    rw [equal, distinct.get?_of_mem entry] at found
    cases found
    exact ⟨script, by rw [equal]; exact other⟩
  · rintro ⟨script, other⟩
    exact ⟨e.1, mem_standaloneKeys.mpr ⟨e.2, member, script⟩,
      Path.same_iff.mpr (Path.Same.refl e.1), other⟩

theorem owner_swept {r : Registry} (bound : r.Bound) (distinct : r.registered.Distinct) :
    ∀ path, r.swept.owner path = r.owner path := by
  obtain ⟨candidates, -⟩ := bound.subsumeAll (bound.closed_of_standalone distinct)
  rw [bound.subsumeAll_standaloneKeys distinct] at candidates
  exact owner_congr rfl rfl candidates

/-- After a sweep every script that has a context is its own owner. -/
theorem same_owner_swept {r : Registry} (bound : r.Bound) (distinct : r.registered.Distinct) :
    ∀ key ∈ r.swept.standaloneKeys, (r.swept.owner key).Same key := by
  intro key member
  obtain ⟨id, entry, script⟩ := mem_standaloneKeys.mp member
  obtain ⟨-, kept⟩ := List.mem_filter.mp entry
  have unchanged : r.isWorkspace id = false := script
  rw [keeps, unchanged, Bool.false_or, Path.same_iff] at kept
  rw [owner_swept bound distinct]
  exact kept

/-- After a sweep another sweep finds nothing to do. -/
theorem subsumeAll_swept {r : Registry} (bound : r.Bound) (distinct : r.registered.Distinct) :
    r.swept.subsumeAll r.swept.sweepKeys = r.swept := by
  have own := same_owner_swept bound distinct
  have keys : ∀ key ∈ r.swept.sweepKeys, key ∈ r.swept.standaloneKeys := by
    intro key member
    unfold sweepKeys at member
    split at member
    · exact member
    · cases member
  generalize r.swept.sweepKeys = list at keys ⊢
  induction list with
  | nil => rfl
  | cons key list inductionHypothesis =>
    obtain ⟨first, others⟩ := List.forall_mem_cons.mp keys
    have unchanged : r.swept.subsume key (r.swept.owner key) = r.swept :=
      if_pos (Path.same_iff.mpr (own key first))
    rw [subsumeAll_cons, unchanged]
    exact inductionHypothesis others

end Registry

end PawnQuery
