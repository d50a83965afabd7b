import PawnQuery.Proofs.Engine.Course
import PawnQuery.Proofs.Registry.Sweep

/-!
# Contexts that keep their places

A context keeps its place in the table until a section takes it away or opens a workspace there.
There are five kinds of such sections, and looking up a context is none of them: it adds an entry at
the end of the table if there is none yet.  New entries are for new contexts.  So a context that has
lost its place does not get one again, and whatever still happens to it does not show.
-/

namespace PawnQuery

namespace Registry

/-- The change takes away the context under a path, or opens a workspace there. -/
def Change.Unbinds (r : Registry) (key : Path) : Change → Prop
  | .tables (.register d _) => d.root.Same key
  | .tables (.detach roots) => ∃ root ∈ roots, root.Same key
  | .tables (.forget owner) => owner.Same key
  | .tables (.subsume path owner) =>
    path.Same key ∧ ¬ owner.Same path ∧ r.bindsWorkspace owner = true
  | .tables .clear => True
  | _ => False

variable {r : Registry} {key : Path} {id : ContextId} {c : Context} {change : Change}

/-! ## One change -/

theorem ne_length_of_found (known : r.context? id = some c) : id ≠ r.store.length :=
  Nat.ne_of_lt (List.getElem?_eq_some_iff.mp known).1

theorem contextAt?_of_apply (stands : (r.apply change).contextAt? key = some id) :
    r.contextAt? key = some id ∨ r.context? id = none := by
  have inserted : ∀ root, (r.registered.insert root r.store.length).get? key = some id →
      r.contextAt? key = some id ∨ r.context? id = none := by
    intro root found
    rw [Path.Map.get?_insert] at found
    split at found
    next =>
      obtain rfl := Option.some.inj found
      exact .inr (List.getElem?_eq_none_iff.mpr (Nat.le_refl _))
    next => exact .inl found
  cases change with
  | context changed step =>
    rw [contextAt?, apply, (r.tables_changeContext changed step).1] at stands
    exact .inl stands
  | tables change =>
    cases change with
    | register d files => exact inserted d.root stands
    | markInitialized => exact .inl stands
    | detach roots => exact .inl (contextAt?_detach stands)
    | forget owner => exact .inl (contextAt?_forget stands)
    | clear => cases stands
    | fetch owner create =>
      simp only [apply, applyTables] at stands
      obtain ⟨_, _, equal⟩ | ⟨_, _, equal⟩ | ⟨_, _, equal⟩ := r.obtain_cases owner create <;>
        rw [equal] at stands
      · exact .inl stands
      · exact .inl stands
      · exact inserted owner stands
    | subsume path owner =>
      simp only [apply, applyTables] at stands
      obtain ⟨_, _, equal⟩ | ⟨_, equal⟩ := r.subsume_cases path owner <;> rw [equal] at stands
      · exact .inl (contextAt?_forget stands)
      · exact .inl stands

theorem contextAt?_apply_of_unbinds (known : r.context? id = some c)
    (unbinds : change.Unbinds r key) : (r.apply change).contextAt? key ≠ some id := by
  cases change with
  | context changed step => cases unbinds
  | tables change =>
    cases change with
    | register d files =>
      have new : (r.register d files).1.contextAt? key = some r.store.length :=
        (Path.Map.get?_insert _ _ _ _).trans (if_pos unbinds)
      intro stands
      exact ne_length_of_found known (Option.some.inj (stands.symm.trans new))
    | detach roots =>
      have gone : (r.detach roots).contextAt? key = none :=
        (r.contextAt?_detach_eq roots key).trans (if_pos unbinds)
      exact fun stands => nomatch stands.symm.trans gone
    | forget owner =>
      have gone : (r.forget owner).contextAt? key = none :=
        (Path.Map.get?_erase _ _ _).trans (if_pos unbinds)
      exact fun stands => nomatch stands.symm.trans gone
    | subsume path owner =>
      obtain ⟨same, differ, owned⟩ := unbinds
      obtain ⟨_, _, equal⟩ | ⟨spared, _⟩ := r.subsume_cases path owner
      · have gone : (r.subsume path owner).contextAt? key = none := by
          rw [equal]
          exact (Path.Map.get?_erase _ _ _).trans (if_pos same)
        exact fun stands => nomatch stands.symm.trans gone
      · exact absurd ⟨differ, owned⟩ spared
    | clear => exact fun stands => nomatch stands
    | markInitialized | fetch _ _ => cases unbinds

theorem contextAt?_apply_of_not_unbinds (stands : r.contextAt? key = some id)
    (gentle : ¬ change.Unbinds r key) : (r.apply change).contextAt? key = some id := by
  cases change with
  | context changed step =>
    rw [contextAt?, apply, (r.tables_changeContext changed step).1]
    exact stands
  | tables change =>
    cases change with
    | register d files => exact (Path.Map.get?_insert_of_not_same _ _ gentle).trans stands
    | markInitialized => exact stands
    | detach roots => exact ((r.contextAt?_detach_eq roots key).trans (if_neg gentle)).trans stands
    | forget owner => exact (Path.Map.get?_erase_of_not_same _ gentle).trans stands
    | clear => exact absurd trivial gentle
    | fetch owner create =>
      simp only [apply, applyTables]
      obtain ⟨_, _, equal⟩ | ⟨_, _, equal⟩ | ⟨missing, _, equal⟩ := r.obtain_cases owner create <;>
        rw [equal]
      · exact stands
      · exact stands
      · have apart : ¬ owner.Same key := by
          intro same
          rw [contextAt?, Path.Map.get?_congr _ same] at missing
          rw [contextAt?, missing] at stands
          cases stands
        exact (Path.Map.get?_insert_of_not_same _ _ apart).trans stands
    | subsume path owner =>
      simp only [apply, applyTables]
      obtain ⟨differ, owned, equal⟩ | ⟨_, equal⟩ := r.subsume_cases path owner <;> rw [equal]
      · have apart : ¬ path.Same key := fun same => gentle ⟨same, differ, owned⟩
        exact (Path.Map.get?_erase_of_not_same _ apart).trans stands
      · exact stands

theorem contextAt?_apply_iff (known : r.context? id = some c) (stands : r.contextAt? key = some id) :
    (r.apply change).contextAt? key = some id ↔ ¬ change.Unbinds r key :=
  ⟨fun still unbinds => contextAt?_apply_of_unbinds known unbinds still,
    contextAt?_apply_of_not_unbinds stands⟩

/-- What is registered under a path after a look-up was there before, or has been made for it. -/
theorem contextAt?_obtain (r : Registry) (owner : Path) (create : Bool) :
    (r.obtain owner create).1.contextAt? owner = (r.obtain owner create).2 := by
  obtain ⟨_, found, equal⟩ | ⟨missing, _, equal⟩ | ⟨_, _, equal⟩ := r.obtain_cases owner create <;>
    rw [equal]
  · exact found
  · exact missing
  · exact Path.Map.get?_insert_self _ _ _

/-- A look-up adds an entry at the end of the table, or nothing. -/
theorem isPrefix_obtain (r : Registry) (owner : Path) (create : Bool) :
    r.registered.entries <+: (r.obtain owner create).1.registered.entries := by
  obtain ⟨_, _, equal⟩ | ⟨_, _, equal⟩ | ⟨missing, _, equal⟩ := r.obtain_cases owner create
  · simp [equal]
  · simp [equal]
  · have absent : r.registered.contains owner = false := by
      rw [← Path.Map.isSome_get?]
      exact Option.isSome_eq_false_iff.mpr (Option.isNone_iff_eq_none.mpr missing)
    rw [equal]
    exact ⟨_, (Path.Map.entries_insert_of_absent absent).symm⟩

/-- A context that is not registered does not show, whatever becomes of it. -/
theorem contexts_changeContext (away : id ∉ r.registered.values) (step : Context.Change) :
    (r.changeContext id step).contexts = r.contexts := by
  unfold contexts
  rw [(r.tables_changeContext id step).1]
  refine List.filterMap_congr fun other member => ?_
  unfold changeContext
  cases found : r.context? id with
  | none => rfl
  | some c =>
    rw [context?_setContext found, if_neg]
    rintro rfl
    exact away member

end Registry

namespace Engine

/-- The contexts of the workspaces that a search has still to look at. -/
def Activity.looksAt : Activity → List ContextId
  | .enter q left => (q.workspaces ++ left).map (·.context)
  | .search _ left => left.map (·.context)
  | .inspect _ w left => w.context :: left.map (·.context)
  | _ => []

namespace State

open PawnQuery.Registry (Change)

/-- A task opens a workspace at a path, closes the one that is open there, removes what is
registered there, has a sweep drop it, or drops everything. -/
def Unbinds (s : State) (key : Path) : Event → Prop
  | .advance task =>
    match s.activity? task with
    | some (.register (d :: _) _) | some (.enroll (d :: _)) => d.root.Same key
    | some (.detach removed _) => ∃ root ∈ removed, root.Same key
    | some (.settle _ .remove owner) => owner.Same key
    | some (.settle path (.sweep _) owner) =>
      path.Same key ∧ ¬ owner.Same path ∧ s.registry.bindsWorkspace owner = true
    | some .clear => True
    | _ => False
  | _ => False

/-- The context that an event makes and enters under a path, if it does. -/
def madeBy (key : Path) (s : State) (e : Event) : List ContextId :=
  ((s.after e).registry.contextAt? key).toList.filter fun id => (s.registry.context? id).isNone

/-- The contexts that an event hands out to searches that have come to a path. -/
def handedBy (key : Path) (s : State) (e : Event) : List ContextId :=
  (s.answersBy e).filterMap fun given =>
    match s.activity? given.1, given.2 with
    | some (.settle _ (.fetch _) owner), .context found => if owner.same key then found else none
    | _, _ => none

variable {s : State} {key : Path} {id : ContextId} {c : Context} {e : Event} {es : List Event}

/-! ## One event -/

theorem unbinds_iff :
    s.Unbinds key e ↔ ∃ change, s.change? e = some change ∧ change.Unbinds s.registry key := by
  cases e with
  | advance task =>
    simp only [Unbinds, change?]
    cases s.activity? task with
    | none => simp
    | some a =>
      cases a with
      | settle path goal owner => cases goal <;> simp [changeBy?, Goal.change?, Change.Unbinds]
      | register todo made => cases todo <;> simp [changeBy?, Change.Unbinds]
      | enroll added => cases added <;> simp [changeBy?, Activity.awaited?, Change.Unbinds]
      | assign assignments added =>
        cases assignments <;> simp [changeBy?, Activity.awaited?, Change.Unbinds]
      | search q left =>
        cases left with
        | nil => simp [changeBy?, Activity.awaited?]
        | cons w rest =>
          simp only [changeBy?, Activity.awaited?, Option.bind_some]
          split <;> simp [Change.Unbinds]
      | _ => simp [changeBy?, Activity.awaited?, Change.Unbinds]
  | _ => simp [Unbinds, change?, Change.Unbinds]

theorem contextAt?_after_iff (known : s.registry.context? id = some c)
    (stands : s.registry.contextAt? key = some id) :
    (s.after e).registry.contextAt? key = some id ↔ ¬ s.Unbinds key e := by
  rw [registry_after, unbinds_iff]
  cases s.change? e with
  | none => simp [stands]
  | some change => simp [Registry.contextAt?_apply_iff known stands]

theorem contextAt?_after_of_not_unbinds (stands : s.registry.contextAt? key = some id)
    (gentle : ¬ s.Unbinds key e) : (s.after e).registry.contextAt? key = some id := by
  rw [registry_after]
  cases made : s.change? e with
  | none => exact stands
  | some change =>
    exact Registry.contextAt?_apply_of_not_unbinds stands fun unbinds =>
      gentle (unbinds_iff.mpr ⟨change, made, unbinds⟩)

theorem contextAt?_of_after (stands : (s.after e).registry.contextAt? key = some id) :
    s.registry.contextAt? key = some id ∨ s.registry.context? id = none := by
  rw [registry_after] at stands
  cases made : s.change? e with
  | none => rw [made] at stands; exact .inl stands
  | some change => rw [made] at stands; exact Registry.contextAt?_of_apply stands

theorem isPrefix_after_of_fetches {task : TaskId} {a : Activity} {path : Path} {create : Bool}
    (activity : s.activity? task = some a) (fetches : a.seeks? = some (path, .fetch create)) :
    s.registry.registered.entries <+: (s.after (.advance task)).registry.registered.entries := by
  rw [registry_after, change?, activity, Option.bind_some]
  have waits : s.registry.registered.entries <+:
      ((a.awaited?.map fun waits => Change.context waits.1 (.enqueue task)).elim s.registry
        s.registry.apply).registered.entries := by
    cases a.awaited? with
    | none => exact List.prefix_refl _
    | some waited => simp [Registry.apply, (s.registry.tables_changeContext waited.1 _).1]
  cases a with
  | settle settled goal owner =>
    cases fetches
    exact s.registry.isPrefix_obtain owner create
  | resolve _ _ | enter _ _ | search _ _ | inspect _ _ _ => exact waits
  | _ => cases fetches

/-! ## Whole runs -/

theorem contextAt?_ne_afterAll (known : s.registry.context? id = some c)
    (away : s.registry.contextAt? key ≠ some id) (es : List Event) :
    (s.afterAll es).registry.contextAt? key ≠ some id := by
  induction es generalizing s c with
  | nil => exact away
  | cons e es inductionHypothesis =>
    refine inductionHypothesis (context?_after known e) fun stands => ?_
    obtain before | missing := contextAt?_of_after stands
    · exact away before
    · exact nomatch known.symm.trans missing

/-- A context keeps its place exactly as long as nothing unbinds the path. -/
theorem contextAt?_afterAll_iff (known : s.registry.context? id = some c)
    (stands : s.registry.contextAt? key = some id) (es : List Event) :
    (s.afterAll es).registry.contextAt? key = some id ↔
      s.Always (fun s e => ¬ s.Unbinds key e) es := by
  induction es generalizing s c with
  | nil => simp [stands]
  | cons e es inductionHypothesis =>
    rw [afterAll_cons, always_cons, ← contextAt?_after_iff known stands]
    have knownAfter := context?_after known e
    by_cases keeps : (s.after e).registry.contextAt? key = some id
    · simpa [keeps] using inductionHypothesis knownAfter keeps
    · simpa [keeps] using contextAt?_ne_afterAll knownAfter keeps es

/-! ## What searches make and hand out -/

theorem mem_handedBy {a : ContextId} (handed : a ∈ handedBy key s e) :
    ∃ task path create owner, e = .advance task ∧
      s.activity? task = some (.settle path (.fetch create) owner) ∧ owner.Same key ∧
      (s.registry.obtain owner create).2 = some a := by
  obtain ⟨⟨task, answer⟩, gives, hands⟩ := List.mem_filterMap.mp handed
  obtain ⟨rfl, b, activity, ends⟩ := eq_advance_of_mem_answersBy gives
  simp only [activity] at hands ends
  cases b with
  | settle path goal owner =>
    cases goal with
    | fetch create =>
      cases ends
      simp only at hands
      split at hands
      next same => exact ⟨task, path, create, owner, rfl, activity, Path.same_iff.mp same, hands⟩
      next => cases hands
    | _ => cases hands
  | _ => cases hands

theorem contextAt?_of_handedBy {a : ContextId} (handed : a ∈ handedBy key s e) :
    (s.after e).registry.contextAt? key = some a := by
  obtain ⟨task, path, create, owner, rfl, activity, same, found⟩ := mem_handedBy handed
  rw [registry_after, change?, activity, Option.bind_some]
  refine (Path.Map.get?_congr _ same.symm).trans ?_
  exact (s.registry.contextAt?_obtain owner create).trans found

theorem madeBy_of_known (stands : (s.after e).registry.contextAt? key = some id)
    (known : s.registry.context? id = some c) : madeBy key s e = [] := by
  simp [madeBy, stands, known]

theorem length_madeBy_le_one (key : Path) (s : State) (e : Event) : (madeBy key s e).length ≤ 1 := by
  unfold madeBy
  cases (s.after e).registry.contextAt? key with
  | none => exact Nat.zero_le _
  | some id => exact List.length_filter_le _ [id]

/-- As long as a context keeps its place, no other is made for the path or handed out. -/
theorem handed_of_bound (known : s.registry.context? id = some c)
    (stands : s.registry.contextAt? key = some id)
    (gentle : s.Always (fun s e => ¬ s.Unbinds key e) es) :
    s.history (madeBy key) es = [] ∧ ∀ a ∈ s.history (handedBy key) es, a = id := by
  induction es generalizing s c with
  | nil => exact ⟨rfl, fun a handed => nomatch handed⟩
  | cons e es inductionHypothesis =>
    have still := contextAt?_after_of_not_unbinds stands gentle.1
    obtain ⟨made, handed⟩ := inductionHypothesis (context?_after known e) still gentle.2
    constructor
    · rw [history, madeBy_of_known still known, made, List.append_nil]
    · intro a member
      obtain now | later := List.mem_append.mp member
      · exact Option.some.inj ((contextAt?_of_handedBy now).symm.trans still)
      · exact handed a later

/-- As long as nothing unbinds a path, one context is made for it at most, and all searches that
come to it are handed the same. -/
theorem handed_agree (keyed : s.registry.Keyed)
    (gentle : s.Always (fun s e => ¬ s.Unbinds key e) es) :
    (s.history (madeBy key) es).length ≤ 1 ∧
      ∀ a ∈ s.history (handedBy key) es, ∀ b ∈ s.history (handedBy key) es, a = b := by
  induction es generalizing s with
  | nil => exact ⟨Nat.zero_le _, fun a handed => nomatch handed⟩
  | cons e es inductionHypothesis =>
    have keyedAfter : (s.after e).registry.Keyed := keyed_afterAll keyed [e]
    cases bound : (s.after e).registry.contextAt? key with
    | none =>
      have made : madeBy key s e = [] := by simp [madeBy, bound]
      have handed : handedBy key s e = [] := List.eq_nil_iff_forall_not_mem.mpr fun a now =>
        nomatch bound.symm.trans (contextAt?_of_handedBy now)
      simpa only [history, made, handed, List.nil_append] using inductionHypothesis keyedAfter gentle.2
    | some id =>
      obtain ⟨c, known, -⟩ := keyedAfter key id bound
      obtain ⟨made, handed⟩ := handed_of_bound known bound gentle.2
      have same : ∀ a ∈ s.history (handedBy key) (e :: es), a = id := by
        intro a member
        obtain now | later := List.mem_append.mp member
        · exact Option.some.inj ((contextAt?_of_handedBy now).symm.trans bound)
        · exact handed a later
      refine ⟨?_, fun a member b other => (same a member).trans (same b other).symm⟩
      rw [history, made, List.append_nil]
      exact length_madeBy_le_one key s e

/-! ## Contexts without a place -/

theorem settle_of_ended_context {task : TaskId} {a : Activity} {found : Option ContextId}
    (ends : (s.turn task a).next = .ended (.context found)) :
    ∃ path create owner, a = .settle path (.fetch create) owner ∧
      (s.registry.obtain owner create).2 = found := by
  have waits : ∀ (id : ContextId) (next : Activity),
      (s.awaitContext task id next).next ≠ .ended (.context found) := by
    intro id next goes
    have stays := s.seeks?_awaitContext task id next
    rw [goes] at stays
    cases stays
  cases a with
  | settle path goal owner =>
    cases goal with
    | fetch create => cases ends; exact ⟨path, create, owner, rfl, rfl⟩
    | sweep rest => cases rest <;> cases ends
    | tell | remove => cases ends
  | launch id invocation =>
    simp only [turn, launch] at ends
    split at ends
    · cases ends
    · split at ends <;> cases ends
  | giveUp id | collect id reply => rw [turn, next_publish] at ends; cases ends
  | tell id =>
    simp only [turn, tell] at ends
    repeat' split at ends
    all_goals cases ends
  | register todo made => cases todo <;> cases ends
  | enroll added => cases added <;> cases ends
  | assign assignments added => cases assignments <;> cases ends
  | wait id => exact absurd ends (waits id _)
  | resolve path goal => simp only [turn, resolveOwner] at ends; split at ends <;> cases ends
  | enter q left =>
    cases left with
    | nil => cases ends
    | cons w rest => simp only [turn, enterNext] at ends; split at ends <;> cases ends
  | search q left =>
    cases left with
    | nil => cases ends
    | cons w rest =>
      simp only [turn, searchNext] at ends
      split at ends
      · exact absurd ends (waits w.context _)
      · cases ends
  | inspect q w left => simp only [turn, inspectNext] at ends; split at ends <;> cases ends
  | sweep =>
    simp only [turn] at ends
    cases keys : s.registry.sweepKeys <;> rw [keys] at ends <;> cases ends
  | request _ _ _ | detach _ _ | clear | leave => cases ends

/-- What is looked at after a section was looked at before, or is registered. -/
theorem looksAt_of_follows {a b : Activity} (follows : s.Follows a b) (looks : id ∈ b.looksAt) :
    id ∈ a.looksAt ∨ ∃ key, s.registry.contextAt? key = some id := by
  cases follows with
  | opens support =>
    obtain ⟨w, member, rfl⟩ := List.mem_map.mp looks
    rw [List.mem_append, or_self] at member
    exact .inr ⟨w.root, (Registry.mem_candidates.mp member).2⟩
  | passes passed =>
    obtain ⟨w, member, rfl⟩ := List.mem_map.mp looks
    refine .inl (List.mem_map_of_mem ?_)
    obtain all | left := List.mem_append.mp member
    · exact List.mem_append_left _ all
    · exact List.mem_append_right _ (List.mem_cons_of_mem _ left)
  | searches =>
    obtain ⟨w, member, rfl⟩ := List.mem_map.mp looks
    exact .inl (List.mem_map_of_mem (List.mem_append_left _ member))
  | awaits around => exact .inl looks
  | skips elsewhere | lacks missing => exact .inl (List.mem_cons_of_mem _ looks)
  | refused | answered | published | told | registers | registered | detached | enrolls | assigns
  | assigned | requests | waits | alone | enters | unowned | includes | sweeps | swept =>
    cases looks

/-- A context that exists without being registered is out of reach: no search that has begun since
is to look at it. -/
structure Adrift (s : State) (id : ContextId) (since : TaskId) : Prop where
  known : ∃ c, s.registry.context? id = some c
  away : ∀ key, s.registry.contextAt? key ≠ some id
  unseen : ∀ task a, since ≤ task → s.activity? task = some a → id ∉ a.looksAt

variable {since : TaskId}

theorem Adrift.after (adrift : s.Adrift id since) (roster : s.Roster) (e : Event) :
    (s.after e).Adrift id since := by
  obtain ⟨c, known⟩ := adrift.known
  refine ⟨⟨_, context?_after known e⟩, fun key => contextAt?_ne_afterAll known (adrift.away key) [e],
    ?_⟩
  intro task b new activity looks
  cases course roster activity with
  | stays _ before => exact adrift.unseen task b new before looks
  | moves before goes =>
    obtain looked | ⟨key, stands⟩ := looksAt_of_follows (follows_turn goes) looks
    · exact adrift.unseen task _ new before looked
    · exact adrift.away key stands
  | @performs o => cases o <;> cases looks
  | begins => cases looks

theorem Adrift.afterAll (adrift : s.Adrift id since) (roster : s.Roster) (es : List Event) :
    (s.afterAll es).Adrift id since := by
  induction es generalizing s with
  | nil => exact adrift
  | cons e es inductionHypothesis =>
    exact inductionHypothesis (adrift.after roster e) (roster.after e)

theorem Adrift.not_handed_out (adrift : s.Adrift id since) :
    ∀ given ∈ s.answersBy e, given.2 ≠ .context (some id) := by
  rintro ⟨task, answer⟩ gives rfl
  obtain ⟨rfl, a, activity, ends⟩ := eq_advance_of_mem_answersBy gives
  obtain ⟨path, create, owner, rfl, found⟩ := settle_of_ended_context ends
  obtain ⟨c, known⟩ := adrift.known
  have stands : (s.registry.apply (.tables (.fetch owner create))).contextAt? owner = some id :=
    (s.registry.contextAt?_obtain owner create).trans found
  obtain before | missing := Registry.contextAt?_of_apply stands
  · exact adrift.away owner before
  · exact nomatch known.symm.trans missing

theorem Adrift.contexts_after (adrift : s.Adrift id since) (distinct : s.registry.registered.Distinct)
    (touched : s.contextChange? e id ≠ none) :
    (s.after e).registry.contexts = s.registry.contexts := by
  have away : id ∉ s.registry.registered.values := by
    intro member
    obtain ⟨key, stands⟩ := distinct.mem_values_iff.mp member
    exact adrift.away key stands
  rw [registry_after]
  unfold contextChange? at touched
  cases made : s.change? e with
  | none => rfl
  | some change =>
    rw [made, Option.bind_some] at touched
    cases change with
    | tables change => exact absurd rfl touched
    | context changed step =>
      simp only [Change.on?] at touched
      split at touched
      next same =>
        subst same
        exact Registry.contexts_changeContext away step
      next => exact absurd rfl touched

/-- Over a whole run, nothing that happens to a context out of reach is handed out or shown. -/
theorem Adrift.throughout (adrift : s.Adrift id since) (roster : s.Roster) (keyed : s.registry.Keyed)
    (coherent : s.registry.Coherent) (es : List Event) :
    (∀ given ∈ s.history answersBy es, given.2 ≠ .context (some id)) ∧
      s.Always (fun s e => s.contextChange? e id ≠ none →
        (s.after e).registry.contexts = s.registry.contexts) es := by
  induction es generalizing s with
  | nil => exact ⟨fun given member => (nomatch member), trivial⟩
  | cons e es inductionHypothesis =>
    obtain ⟨hidden, unshown⟩ := inductionHypothesis (adrift.after roster e) (roster.after e)
      (keyed_afterAll keyed [e]) (coherent_afterAll coherent keyed [e])
    refine ⟨?_, fun touched => adrift.contexts_after coherent.contextKeys touched, unshown⟩
    intro given member
    obtain now | later := List.mem_append.mp member
    · exact adrift.not_handed_out given now
    · exact hidden given later

/-- A context that was registered once and is not any more is out of reach. -/
theorem adrift_of_gone (keyed : s.registry.Keyed) (distinct : s.registry.registered.Distinct)
    (distinctAfter : (s.afterAll es).registry.registered.Distinct)
    (roster : (s.afterAll es).Roster) (stood : id ∈ s.registry.registered.values)
    (gone : id ∉ (s.afterAll es).registry.registered.values) :
    (s.afterAll es).Adrift id (s.afterAll es).taskCount := by
  obtain ⟨key, stands⟩ := distinct.mem_values_iff.mp stood
  obtain ⟨c, known, -⟩ := keyed key id stands
  obtain ⟨later, knownLater, -, -⟩ := context?_afterAll known es
  refine ⟨⟨later, knownLater⟩, ?_, ?_⟩
  · exact fun other found => gone (distinctAfter.mem_values_iff.mpr ⟨other, found⟩)
  · intro task a new activity
    exact absurd (roster.number_lt activity) (Nat.not_lt.mpr new)

/-- In every run a context keeps its place in the table exactly until a section takes it away or
opens a workspace there.  Looking up a context changes no entry, and as long as a path is not
unbound one context is made for it at most and all searches that come to it are handed that one.  A
context that has lost its place is never registered again or handed out, what happens to it changes
nothing of what the registry shows, and no search that begins later looks at it. -/
theorem bindings_stable {s : State} (initial : s.Initial) (before es : List Event) :
    let u := s.afterAll before
    let v := u.afterAll es
    (∀ key id, u.registry.contextAt? key = some id →
      (v.registry.contextAt? key = some id ↔ u.Always (fun s e => ¬ s.Unbinds key e) es)) ∧
    (∀ task a path create, u.activity? task = some a → a.seeks? = some (path, .fetch create) →
      u.registry.registered.entries <+:
        (u.after (.advance task)).registry.registered.entries) ∧
    (∀ key, u.Always (fun s e => ¬ s.Unbinds key e) es →
      (u.history (madeBy key) es).length ≤ 1 ∧
        ∀ a ∈ u.history (handedBy key) es, ∀ b ∈ u.history (handedBy key) es, a = b) ∧
    ∀ id ∈ u.registry.registered.values, id ∉ v.registry.registered.values → ∀ later,
      id ∉ (v.afterAll later).registry.registered.values ∧
      (∀ given ∈ v.history answersBy later, given.2 ≠ .context (some id)) ∧
      v.Always (fun s e => s.contextChange? e id ≠ none →
        (s.after e).registry.contexts = s.registry.contexts) later ∧
      ∀ task a, v.taskCount ≤ task → (v.afterAll later).activity? task = some a →
        id ∉ a.looksAt := by
  intro u v
  have keyed : u.registry.Keyed := keyed_afterAll initial.keyed before
  have coherent : u.registry.Coherent := coherent_afterAll initial.coherent initial.keyed before
  have roster : u.Roster := initial.roster.afterAll before
  have coherentAfter (more : List Event) : (v.afterAll more).registry.Coherent :=
    coherent_afterAll (coherent_afterAll coherent keyed es) (keyed_afterAll keyed es) more
  refine ⟨?_, ?_, fun key gentle => handed_agree keyed gentle, ?_⟩
  · intro key id stands
    obtain ⟨c, known, -⟩ := keyed key id stands
    exact contextAt?_afterAll_iff known stands es
  · exact fun task a path create activity fetches => isPrefix_after_of_fetches activity fetches
  · intro id stood gone later
    have rosterAfter : v.Roster := roster.afterAll es
    have adrift : v.Adrift id v.taskCount :=
      adrift_of_gone keyed coherent.contextKeys (coherentAfter []).contextKeys rosterAfter stood gone
    obtain ⟨hidden, unshown⟩ :=
      adrift.throughout rosterAfter (keyed_afterAll keyed es) (coherentAfter []) later
    have last : (v.afterAll later).Adrift id v.taskCount := adrift.afterAll rosterAfter later
    refine ⟨?_, hidden, unshown, last.unseen⟩
    intro member
    obtain ⟨key, stands⟩ := (coherentAfter later).contextKeys.mem_values_iff.mp member
    exact last.away key stands

/-- Two searches for `/w` overlap. -/
def overlappingRun : List Event :=
  let moves (task : TaskId) (n : Nat) : List Event := .replicate n (.advance task)
  [.perform (.get ⟨"/w"⟩ true), .perform (.get ⟨"/w"⟩ true)] ++ moves 0 2 ++ moves 1 4 ++ moves 0 2

/-- A workspace is opened at `/w` while an invocation for the script is held back. -/
def replacingRun : List Event :=
  [.instruct .hold, .run 0, .advance 2, .perform (.update [] [{ root := ⟨"/w"⟩ }]), .advance 3,
    .advance 3]

/-- Both searches are handed one context.  It loses its place to the workspace's, and what its
invocation finds does not show. -/
theorem bindings_stable_replacingRun :
    Initial {} ∧
      let u := afterAll {} overlappingRun
      let v := u.afterAll replacingRun
      let later : List Event := [.release 0, .advance 2]
      history (handedBy ⟨"/w"⟩) {} overlappingRun = [0, 0] ∧
      ¬ u.Always (fun s e => ¬ s.Unbinds ⟨"/w"⟩ e) replacingRun ∧
      0 ∉ (v.afterAll later).registry.registered.values ∧
      v.Always (fun s e => s.contextChange? e 0 ≠ none →
        (s.after e).registry.contexts = s.registry.contexts) later := by
  have handed : history (handedBy ⟨"/w"⟩) {} overlappingRun = [0, 0] := by decide +kernel
  have stood : (afterAll {} overlappingRun).registry.contextAt? ⟨"/w"⟩ = some 0 := by decide +kernel
  have replaced : ((afterAll {} overlappingRun).afterAll replacingRun).registry.contextAt? ⟨"/w"⟩ ≠
      some 0 := by decide +kernel
  have bound : 0 ∈ (afterAll {} overlappingRun).registry.registered.values := by decide +kernel
  have gone : 0 ∉ ((afterAll {} overlappingRun).afterAll replacingRun).registry.registered.values := by
    decide +kernel
  obtain ⟨keeps, -, -, away⟩ := bindings_stable initial_default overlappingRun replacingRun
  obtain ⟨stays, -, unshown, -⟩ := away 0 bound gone [.release 0, .advance 2]
  exact ⟨initial_default, handed, fun gentle => replaced ((keeps ⟨"/w"⟩ 0 stood).mpr gentle), stays,
    unshown⟩

end State

end Engine

end PawnQuery
