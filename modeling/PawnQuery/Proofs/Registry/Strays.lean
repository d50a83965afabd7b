import PawnQuery.Proofs.Registry.Sweep

/-!
# Scripts that a workspace owns

A script that has a context of its own strays if a workspace owns it.  What a workspace owns is a
matter of its main file and of the files that it was found to include.  So scripts stray when a main
file is set, when an invocation publishes what it found, and when a context is made for a script that
is owned already; no other change of the registry makes one stray.
-/

namespace PawnQuery

open PawnQuery.Symbols (SymbolTable)
open PawnQuery.Workspace (Descriptor)

namespace Context

/-- The change may have a context own other files than before. -/
def Change.reclaims : Change → Bool
  | .finish (some _) _ | .setMainFile _ _ => true
  | _ => false

@[simp] theorem listener_apply (c : Context) (change : Change) :
    (c.apply change).listener = c.listener := by
  cases change with
  | begin => obtain equal | ⟨_, _, _, equal⟩ := c.begin_cases <;> simp only [apply, equal]
  | enqueue waiter =>
    obtain ⟨_, equal⟩ | ⟨_, equal⟩ := c.enqueue_cases waiter <;> simp only [apply, equal]
  | finish reply now => cases reply <;> rfl
  | setMainFile file reparse => simp only [apply, setMainFile]; split <;> rfl

theorem claims_apply (c : Context) {change : Change} (gentle : change.reclaims = false) :
    (c.apply change).mainFile? = c.mainFile? ∧ (c.apply change).symbols = c.symbols := by
  cases change with
  | begin =>
    obtain equal | ⟨_, _, _, equal⟩ := c.begin_cases <;> rw [apply, equal] <;>
      exact ⟨rfl, rfl⟩
  | enqueue waiter =>
    obtain ⟨_, equal⟩ | ⟨_, equal⟩ := c.enqueue_cases waiter <;> rw [apply, equal] <;>
      exact ⟨rfl, rfl⟩
  | finish reply now =>
    cases reply with
    | none => exact ⟨rfl, rfl⟩
    | some reply => cases gentle
  | setMainFile file reparse => cases gentle

end Context

namespace Registry

/-- A script has a context of its own under a path where no workspace is open, but a workspace owns
the path. -/
structure Strays (r : Registry) (key : Path) (w : Candidate) : Prop where
  entry : ∃ id, (key, id) ∈ r.registered.entries ∧ r.isWorkspace id = false
  closed : r.workspaces.contains key = false
  candidate : w ∈ r.candidates
  owns : r.enters key w = true ∨ r.includes key w = true

/-- What tells whether a context owns a path: its main file and its symbols. -/
def claims? (r : Registry) (id : ContextId) : Option (Option String × SymbolTable) :=
  (r.context? id).map fun c => (c.mainFile?, c.symbols)

variable {r other : Registry} {key : Path} {w : Candidate}

theorem owns_congr (same : other.claims? w.context = r.claims? w.context) (path : Path) :
    other.enters path w = r.enters path w ∧ other.includes path w = r.includes path w := by
  have enters : ∀ r : Registry, r.enters path w =
      isEntryPoint path w.root ((r.claims? w.context).bind Prod.fst) := by
    intro r
    unfold Registry.enters claims?
    cases r.context? w.context <;> rfl
  have includes : ∀ r : Registry, r.includes path w =
      (path.startsWith w.root && (r.claims? w.context).any fun c => c.2.includes path) := by
    intro r
    unfold Registry.includes knows claims?
    cases r.context? w.context <;> rfl
  rw [enters, enters, includes, includes, same]
  exact ⟨rfl, rfl⟩

theorem claims?_apply {id : ContextId} {c : Context} (found : r.context? id = some c)
    {change : Change} (gentle : (change.on? id).any Context.Change.reclaims = false) :
    (r.apply change).claims? id = r.claims? id := by
  unfold claims?
  rw [context?_apply found change, found, Option.map_some, Option.map_some]
  cases made : change.on? id with
  | none => rfl
  | some step =>
    rw [made, Option.any_some] at gentle
    obtain ⟨mainFile, symbols⟩ := c.claims_apply gentle
    rw [Option.elim_some, mainFile, symbols]

theorem Keyed.exists_context (keyed : r.Keyed) (member : w ∈ r.candidates) :
    ∃ c, r.context? w.context = some c := by
  obtain ⟨c, found, -⟩ := keyed w.root w.context (mem_candidates.mp member).2
  exact ⟨c, found⟩

/-- A context as it is made owns nothing but its root. -/
theorem not_owns_of_isFresh {c : Context} (found : r.context? w.context = some c)
    (fresh : c.IsFresh) (apart : ¬ key.Same w.root) :
    ¬ (r.enters key w = true ∨ r.includes key w = true) := by
  have nothing : c.mainFile? = none ∧ c.symbols = {} := by
    obtain equal | equal := fresh <;> rw [equal] <;> exact ⟨rfl, rfl⟩
  rintro (enters | includes)
  · simp only [Registry.enters, found, Option.bind_some, nothing.1, isEntryPoint, Option.any_none,
      Bool.or_false, Path.same_iff] at enters
    exact apart enters
  · simp only [Registry.includes, knows, found, Option.any_some, nothing.2, Bool.and_eq_true]
      at includes
    cases includes.2

theorem not_same_of_closed (member : w ∈ r.candidates) (closed : r.workspaces.contains key = false) :
    ¬ key.Same w.root := by
  intro same
  have opened : r.workspaces.contains key = true :=
    Path.Map.contains_iff_mem_keys.mpr ⟨w.root, (mem_candidates.mp member).1, same.symm⟩
  rw [closed] at opened
  cases opened

/-! ## Where scripts come to stray -/

/-- What a path that strays has to do with the tables. -/
structure Listed (r : Registry) (key : Path) (id : ContextId) (w : Candidate) : Prop where
  entry : (key, id) ∈ r.registered.entries
  closed : r.workspaces.contains key = false
  candidate : w ∈ r.candidates

theorem mem_candidates_of_subset (roots : w.root ∈ other.workspaces.keys → w.root ∈ r.workspaces.keys)
    (contexts : other.contextAt? w.root = some w.context → r.contextAt? w.root = some w.context)
    (member : w ∈ other.candidates) : w ∈ r.candidates := by
  obtain ⟨root, stands⟩ := mem_candidates.mp member
  exact mem_candidates.mpr ⟨roots root, contexts stands⟩

theorem Listed.of_forget {id : ContextId} {path : Path} (listed : (r.forget path).Listed key id w) :
    r.Listed key id w := by
  obtain ⟨entry, closed, candidate⟩ := listed
  obtain ⟨member, other⟩ := List.mem_filter.mp entry
  have apart : ¬ path.Same key := by
    intro same
    rw [Bool.not_eq_true', ← Bool.not_eq_true, Path.same_iff] at other
    exact other same.symm
  refine ⟨member, ?_, mem_candidates_of_subset ?_ contextAt?_forget candidate⟩
  · rw [Bool.eq_false_iff] at closed ⊢
    exact fun opened => closed ((Path.Map.contains_erase _ _ _).mpr ⟨apart, opened⟩)
  · exact fun root => (List.filter_sublist.map _).subset root

theorem Listed.of_detach {id : ContextId} {roots : List Path}
    (listed : (r.detach roots).Listed key id w) : r.Listed key id w := by
  induction roots generalizing r with
  | nil => exact listed
  | cons root roots inductionHypothesis => exact (inductionHypothesis listed).of_forget

theorem Listed.of_register {id : ContextId} {d : Descriptor} {files : Files.FileTree} {c : Context}
    (listed : (r.register d files).1.Listed key id w) (old : id ≠ r.store.length)
    (found : r.context? w.context = some c) : r.Listed key id w := by
  obtain ⟨entry, closed, candidate⟩ := listed
  obtain ⟨root, stands⟩ := mem_candidates.mp candidate
  refine ⟨?_, ?_, mem_candidates.mpr ?_⟩
  · exact (Path.Map.mem_insert entry).resolve_left fun new => old new
  · rw [Bool.eq_false_iff] at closed ⊢
    exact fun opened => closed ((Path.Map.contains_insert _ _ _ _).mpr (.inr opened))
  · have looked := (Path.Map.get?_insert _ _ _ _).symm.trans stands
    split at looked
    next =>
      have new : r.store.length = w.context := Option.some.inj looked
      simp [← new, context?] at found
    next apart =>
      refine ⟨?_, looked⟩
      have keys := Path.Map.keys_insert r.workspaces d.root d
      have inside : w.root ∈ (r.workspaces.insert d.root d).keys := root
      rw [keys] at inside
      split at inside
      · exact inside
      · obtain before | last := List.mem_append.mp inside
        · exact before
        · exact absurd (by rw [List.mem_singleton.mp last]; exact Path.Same.refl _) apart

theorem Listed.of_made {id : ContextId} {path : Path} {c : Context}
    (missing : r.contextAt? path = none)
    (listed : Listed { r with
      store := r.store ++ [.standalone path r.settings]
      registered := r.registered.insert path r.store.length } key id w)
    (found : r.context? w.context = some c) :
    r.Listed key id w ∨ path = key ∧ w ∈ r.candidates := by
  obtain ⟨entry, closed, candidate⟩ := listed
  obtain ⟨root, stands⟩ := mem_candidates.mp candidate
  have before : w ∈ r.candidates := by
    have looked := (Path.Map.get?_insert _ _ _ _).symm.trans stands
    split at looked
    next =>
      have new : r.store.length = w.context := Option.some.inj looked
      simp [← new, context?] at found
    next => exact mem_candidates.mpr ⟨root, looked⟩
  have absent : r.registered.contains path = false := by
    rw [← Path.Map.isSome_get?, ← contextAt?, missing]
    rfl
  rw [Path.Map.entries_insert_of_absent absent] at entry
  obtain old | new := List.mem_append.mp entry
  · exact .inl ⟨old, closed, before⟩
  · cases List.mem_singleton.mp new
    exact .inr ⟨rfl, before⟩

theorem Listed.of_apply {id : ContextId} {change : Change} {c : Context}
    (listed : (r.apply change).Listed key id w) (script : (r.apply change).isWorkspace id = false)
    (found : r.context? w.context = some c) :
    r.Listed key id w ∨
      change = .tables (.fetch key true) ∧ r.contextAt? key = none ∧
        r.workspaces.contains key = false ∧ w ∈ r.candidates := by
  cases change with
  | tables change =>
    cases change with
    | register d files =>
      refine .inl (listed.of_register ?_ found)
      rintro rfl
      rw [Registry.apply, applyTables, isWorkspace_register] at script
      cases script
    | markInitialized => exact .inl ⟨listed.entry, listed.closed, listed.candidate⟩
    | detach roots => exact .inl (listed.of_detach)
    | fetch path create =>
      simp only [Registry.apply, applyTables] at listed
      obtain ⟨_, _, equal⟩ | ⟨_, _, equal⟩ | ⟨missing, rfl, equal⟩ := r.obtain_cases path create
      · rw [equal] at listed
        exact .inl listed
      · rw [equal] at listed
        exact .inl listed
      · rw [equal] at listed
        obtain old | ⟨rfl, member⟩ := listed.of_made missing found
        · exact .inl old
        · exact .inr ⟨rfl, missing, listed.closed, member⟩
    | forget path => exact .inl listed.of_forget
    | subsume path owner =>
      simp only [Registry.apply, applyTables] at listed
      obtain ⟨_, _, equal⟩ | ⟨_, equal⟩ := r.subsume_cases path owner
      · rw [equal] at listed
        obtain ⟨root, stands⟩ := mem_candidates.mp listed.candidate
        exact .inl ⟨(List.mem_filter.mp listed.entry).1, listed.closed,
          mem_candidates.mpr ⟨root, contextAt?_forget stands⟩⟩
      · rw [equal] at listed
        exact .inl listed
    | clear => exact absurd listed.entry (List.not_mem_nil)
  | context changed step =>
    obtain ⟨registered, workspaces⟩ := r.tables_changeContext changed step
    obtain ⟨entry, closed, candidate⟩ := listed
    simp only [Registry.apply, registered, workspaces] at entry closed
    refine .inl ⟨entry, closed, mem_candidates_of_subset ?_ ?_ candidate⟩
    · simp only [Registry.apply, workspaces, imp_self]
    · simp only [Registry.apply, contextAt?, registered, imp_self]

/-- A change that leaves a workspace's claims alone makes no script stray to it, unless it makes a
context for a script that the workspace owned before. -/
theorem Strays.of_apply (keyed : r.Keyed) {change : Change}
    (gentle : (change.on? w.context).any Context.Change.reclaims = false)
    (strays : (r.apply change).Strays key w) :
    (r.apply change).claims? w.context = r.claims? w.context ∧
      (r.Strays key w ∨
        change = .tables (.fetch key true) ∧ r.contextAt? key = none ∧
          r.workspaces.contains key = false ∧ w ∈ r.candidates ∧
          (r.enters key w = true ∨ r.includes key w = true)) := by
  obtain ⟨later, foundLater⟩ := (keyed.apply change).exists_context strays.candidate
  cases found : r.context? w.context with
  | none =>
    exact absurd strays.owns (not_owns_of_isFresh foundLater
      (isFresh_of_context?_apply found change foundLater)
      (not_same_of_closed strays.candidate strays.closed))
  | some c =>
    have same := claims?_apply found gentle
    have owns := strays.owns
    rw [(owns_congr same key).1, (owns_congr same key).2] at owns
    obtain ⟨id, entry, script⟩ := strays.entry
    refine ⟨same, ?_⟩
    obtain listed | ⟨made, missing, closed, member⟩ :=
      Listed.of_apply ⟨entry, strays.closed, strays.candidate⟩ script found
    · refine .inl ⟨⟨id, listed.entry, ?_⟩, listed.closed, listed.candidate, owns⟩
      rw [Bool.eq_false_iff] at script ⊢
      exact fun workspace => script (isWorkspace_apply workspace change)
    · exact .inr ⟨made, missing, closed, member, owns⟩

/-- A script strays if and only if its owner is another path. -/
theorem exists_strays_iff (support : r.workspaceSupport = true) {id : ContextId}
    (entry : (key, id) ∈ r.registered.entries) (script : r.isWorkspace id = false)
    (closed : r.workspaces.contains key = false) :
    (∃ w, r.Strays key w) ↔ ¬ (r.owner key).Same key := by
  constructor
  · rintro ⟨w, strays⟩ same
    obtain ⟨v, member, equal⟩ := exists_owner support strays.candidate strays.owns
    rw [equal] at same
    exact not_same_of_closed member closed same.symm
  · intro other
    obtain own | ⟨w, member, -, owns⟩ := r.owner_cases key
    · rw [own] at other
      exact absurd (Path.Same.refl key) other
    · exact ⟨w, ⟨id, entry, script⟩, closed, member, owns⟩

end Registry

end PawnQuery
