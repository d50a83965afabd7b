import PawnQuery.Proofs.Engine.Alone

/-!
# The owner of a path

While nothing runs, the owner of a path can be read off the registry: it is the first open workspace
that is entered at the path, or else the first one around the path that includes it, or else the
path itself.  A search that has the program to itself finds this owner.
-/

namespace PawnQuery

namespace Registry

def enters (r : Registry) (path : Path) (w : Candidate) : Bool :=
  isEntryPoint path w.root ((r.context? w.context).bind Context.mainFile?)

/-- The workspace has been found to include the path. -/
def knows (r : Registry) (path : Path) (w : Candidate) : Bool :=
  (r.context? w.context).any fun c => c.symbols.includes path

/-- The path lies in the folder of the workspace, which has been found to include it. -/
def includes (r : Registry) (path : Path) (w : Candidate) : Bool :=
  path.startsWith w.root && r.knows path w

/-- The owner of a path as the registry is now. -/
def owner (r : Registry) (path : Path) : Path :=
  if r.workspaceSupport then
    ((r.candidates.find? (r.enters path)).or (r.candidates.find? (r.includes path))).elim path
      Candidate.root
  else path

/-- The owner is the path itself, or an open workspace that the path is an entry point of or that
includes it. -/
theorem owner_cases (r : Registry) (path : Path) :
    r.owner path = path ∨
      ∃ w ∈ r.candidates, r.owner path = w.root ∧
        (r.enters path w = true ∨ r.includes path w = true) := by
  unfold owner
  split
  · cases entered : r.candidates.find? (r.enters path) with
    | some w =>
      exact .inr ⟨w, List.mem_of_find?_eq_some entered, rfl, .inl (List.find?_some entered)⟩
    | none =>
      rw [Option.none_or]
      cases included : r.candidates.find? (r.includes path) with
      | some w =>
        exact .inr ⟨w, List.mem_of_find?_eq_some included, rfl, .inr (List.find?_some included)⟩
      | none => exact .inl rfl
  · exact .inl rfl

theorem exists_owner {r : Registry} (support : r.workspaceSupport = true) {path : Path}
    {w : Candidate} (member : w ∈ r.candidates)
    (owns : r.enters path w = true ∨ r.includes path w = true) :
    ∃ v ∈ r.candidates, r.owner path = v.root := by
  unfold owner
  rw [if_pos support]
  cases entered : r.candidates.find? (r.enters path) with
  | some v => exact ⟨v, List.mem_of_find?_eq_some entered, rfl⟩
  | none =>
    rw [Option.none_or]
    cases included : r.candidates.find? (r.includes path) with
    | some v => exact ⟨v, List.mem_of_find?_eq_some included, rfl⟩
    | none =>
      obtain enters | includes := owns
      · exact absurd enters (List.find?_eq_none.mp entered w member)
      · exact absurd includes (List.find?_eq_none.mp included w member)

end Registry

namespace Engine.State

open PawnQuery.Registry (Candidate)

/-- Of the workspaces whose folders the path lies in, none runs before one has been found to include
the path, nor does that one. -/
def Unhindered (s : State) (path : Path) (workspaces : List Candidate) : Prop :=
  ∀ earlier w later, workspaces.filter (fun w => path.startsWith w.root) = earlier ++ w :: later →
    (∀ v ∈ earlier, s.registry.knows path v = false) → s.isRunning w.context = false

variable {s : State} {path : Path} {w : Candidate} {rest : List Candidate}

theorem Unhindered.idle (unhindered : s.Unhindered path (w :: rest))
    (around : path.startsWith w.root = true) : s.isRunning w.context = false :=
  unhindered [] w _ (List.filter_cons_of_pos around) fun _ member => nomatch member

theorem Unhindered.tail (unhindered : s.Unhindered path (w :: rest))
    (passed : s.registry.includes path w = false) : s.Unhindered path rest := by
  intro earlier v later split unknown
  by_cases around : path.startsWith w.root = true
  · refine unhindered (w :: earlier) v later ?_ fun u member => ?_
    · rw [List.filter_cons_of_pos (by exact around), split, List.cons_append]
    · obtain rfl | before := List.mem_cons.mp member
      · simpa only [Registry.includes, around, Bool.true_and] using passed
      · exact unknown u before
  · have skipped : (w :: rest).filter (fun w => path.startsWith w.root) = earlier ++ v :: later := by
      rw [List.filter_cons_of_neg (by exact around), split]
    exact unhindered earlier v later skipped unknown

theorem unhindered_of_idle {workspaces : List Candidate}
    (idle : ∀ w ∈ workspaces, s.isRunning w.context = false) (path : Path) :
    s.Unhindered path workspaces := by
  intro earlier w later split _
  have around : w ∈ workspaces.filter fun w => path.startsWith w.root :=
    split ▸ List.mem_append_right _ List.mem_cons_self
  exact idle w (List.mem_of_mem_filter around)

theorem Silent.unhindered (silent : s.Silent) (path : Path) (workspaces : List Candidate) :
    s.Unhindered path workspaces :=
  unhindered_of_idle (fun w _ => silent.contexts w.context) path

/-! ## A search on its own -/

theorem leads_enter (free : s.NextFree) (q : Query) (left : List Candidate) :
    Leads s.taskCount (s.begin (.enter q left))
      (s.begin ((left.find? (s.registry.enters q.path)).elim (.search q q.workspaces)
        fun w => .settle q.path q.goal w.root)) := by
  induction left with
  | nil => exact free.leads_of_ready rfl
  | cons w rest inductionHypothesis =>
    by_cases entered : s.registry.enters q.path w = true
    · rw [List.find?_cons_of_pos entered]
      refine free.leads_of_ready ?_
      simp only [turn, enterNext]
      exact if_pos entered
    · rw [List.find?_cons_of_neg entered]
      refine .trans (free.leads_of_ready ?_) inductionHypothesis
      simp only [turn, enterNext]
      exact if_neg entered

/-- A workspace that does not run is looked into at once: it includes the path, or the search goes
on with the next one. -/
theorem leads_search_next (free : s.NextFree) (q : Query) (w : Candidate) (rest : List Candidate)
    (idle : q.path.startsWith w.root = true → s.isRunning w.context = false) :
    Leads s.taskCount (s.begin (.search q (w :: rest)))
      (s.begin (if s.registry.includes q.path w then .settle q.path q.goal w.root
        else .search q rest)) := by
  by_cases around : q.path.startsWith w.root = true
  · have waits : Leads s.taskCount (s.begin (.search q (w :: rest)))
        (s.begin (.inspect q w rest)) := by
      refine free.leads_of_ready ?_
      have quiet : (s.begin (.search q (w :: rest))).isRunning w.context = false := idle around
      simp only [turn, searchNext, if_pos around]
      exact awaitContext_of_idle quiet _ _
    refine waits.trans ?_
    simp only [Registry.includes, around, Bool.true_and]
    split
    next known =>
      refine free.leads_of_ready ?_
      simp only [turn, inspectNext]
      exact if_pos known
    next unknown =>
      refine free.leads_of_ready ?_
      simp only [turn, inspectNext]
      exact if_neg unknown
  · have away : s.registry.includes q.path w = false := by simp [Registry.includes, around]
    rw [away]
    refine free.leads_of_ready ?_
    simp only [turn, searchNext]
    exact if_neg around

theorem leads_search (free : s.NextFree) (q : Query) (left : List Candidate)
    (unhindered : s.Unhindered q.path left) :
    Leads s.taskCount (s.begin (.search q left))
      (s.begin (.settle q.path q.goal
        ((left.find? (s.registry.includes q.path)).elim q.path Candidate.root))) := by
  induction left with
  | nil => exact free.leads_of_ready rfl
  | cons w rest inductionHypothesis =>
    have looks := leads_search_next free q w rest unhindered.idle
    cases included : s.registry.includes q.path w with
    | true =>
      rw [if_pos included] at looks
      rw [List.find?_cons_of_pos included]
      exact looks
    | false =>
      rw [if_neg (by simp [included])] at looks
      rw [List.find?_cons_of_neg (by simp [included])]
      exact looks.trans (inductionHypothesis (unhindered.tail included))

theorem leads_opening (free : s.NextFree) (support : s.registry.workspaceSupport = true)
    (path : Path) (goal : Goal) :
    Leads s.taskCount (s.begin (.resolve path goal))
      (s.begin ((s.registry.candidates.find? (s.registry.enters path)).elim
        (.search ⟨path, goal, s.registry.candidates⟩ s.registry.candidates)
        fun w => .settle path goal w.root)) := by
  have opens : Leads s.taskCount (s.begin (.resolve path goal))
      (s.begin (.enter ⟨path, goal, s.registry.candidates⟩ s.registry.candidates)) := by
    refine free.leads_of_ready ?_
    simp only [turn, resolveOwner]
    exact if_pos support
  exact opens.trans (leads_enter free ⟨path, goal, s.registry.candidates⟩ s.registry.candidates)

/-- A search that has the program to itself comes to the owner that can be read off the registry,
unless it has to wait for a workspace first. -/
theorem leads_resolve (free : s.NextFree) (path : Path) (goal : Goal)
    (unhindered : (∃ w ∈ s.registry.candidates, s.registry.enters path w = true) ∨
      s.Unhindered path s.registry.candidates) :
    Leads s.taskCount (s.begin (.resolve path goal))
      (s.begin (.settle path goal (s.registry.owner path))) := by
  by_cases support : s.registry.workspaceSupport = true
  · have opens := leads_opening free support path goal
    unfold Registry.owner
    rw [if_pos support]
    cases entered : s.registry.candidates.find? (s.registry.enters path) with
    | some w =>
      rw [entered] at opens
      exact opens
    | none =>
      rw [entered] at opens
      obtain ⟨w, member, names⟩ | unhindered := unhindered
      · exact absurd names (List.find?_eq_none.mp entered w member)
      · exact opens.trans (leads_search free ⟨path, goal, s.registry.candidates⟩
          s.registry.candidates unhindered)
  · unfold Registry.owner
    rw [if_neg support]
    refine free.leads_of_ready ?_
    simp only [turn, resolveOwner]
    exact if_neg support

theorem Silent.leads_resolve (silent : s.Silent) (path : Path) (goal : Goal) :
    Leads s.taskCount (s.begin (.resolve path goal))
      (s.begin (.settle path goal (s.registry.owner path))) :=
  State.leads_resolve silent.nextFree path goal (.inr (silent.unhindered path _))

/-- Asking for the owner of a path when no workspace has to be waited for gives the owner that can
be read off the registry, and changes nothing else. -/
theorem concludes_resolve_of_unhindered (free : s.NextFree) (path : Path)
    (unhindered : (∃ w ∈ s.registry.candidates, s.registry.enters path w = true) ∨
      s.Unhindered path s.registry.candidates) :
    s.Concludes (.resolve path) s.registry (.owner (s.registry.owner path)) :=
  concludes_of_leads ((leads_resolve free path .tell unhindered).trans (free.leads_of_ended rfl))

/-- Asking for the owner of a path while nothing runs gives the owner that can be read off the
registry, and changes nothing else. -/
theorem concludes_resolve (silent : s.Silent) (path : Path) :
    s.Concludes (.resolve path) s.registry (.owner (s.registry.owner path)) :=
  concludes_resolve_of_unhindered silent.nextFree path (.inr (silent.unhindered path _))

end Engine.State

end PawnQuery
