import PawnQuery.Proofs.Engine.Settled
import PawnQuery.Proofs.Registry.Stability

/-!
# The context of a path once the workspaces are open

A search passes through the workspaces that were open when it began.  Meanwhile a workspace may lose
its place, but another workspace does not get it as long as none is opened.  So a path that belongs
to a workspace because of its main file, or because of what it includes, leads to a context with a
main file, and a workspace without one is handed out for its own folder only.
-/

namespace PawnQuery

namespace Registry

variable {r : Registry} {w : Candidate} {path owner : Path}

/-- No other workspace is registered at the folder. -/
def Tied (r : Registry) (w : Candidate) : Prop :=
  ∀ id, r.contextAt? w.root = some id → r.isWorkspace id = true → id = w.context

/-- A workspace without main file owns the path only if it is the folder. -/
def Fits (r : Registry) (path owner : Path) : Prop :=
  ∀ id c, r.contextAt? owner = some id → r.context? id = some c → c.isWorkspace = true →
    c.mainFile? = none → path.Same owner

theorem tied_of_mem_candidates (member : w ∈ r.candidates) : r.Tied w := by
  intro id found _
  rw [(mem_candidates.mp member).2] at found
  exact (Option.some.inj found).symm

theorem fits_self (r : Registry) (path : Path) : r.Fits path path :=
  fun _ _ _ _ _ _ => Path.Same.refl path

/-- A workspace that has no main file is entered at its folder only. -/
theorem Tied.fits_of_enters (tied : r.Tied w) (entered : r.enters path w = true) :
    r.Fits path w.root := by
  intro id c stands found workspace nothing
  obtain rfl := tied id stands (by simp [isWorkspace, found, workspace])
  simpa [enters, found, nothing, isEntryPoint] using entered

end Registry

namespace Engine

open PawnQuery.Registry (Candidate)

/-- The workspaces that a search has still to look at. -/
def Activity.surveys : Activity → List Candidate
  | .enter q left => q.workspaces ++ left
  | .search _ left => left
  | .inspect _ w left => w :: left
  | _ => []

namespace State

variable {s : State} {report : String} {limit : Nat} {task : TaskId} {e : Event} {id : ContextId}
  {c : Context} {a b : Activity} {path key owner : Path} {w : Candidate}

/-! ## The tables -/

namespace Settled

/-- A workspace that is registered has been so before. -/
theorem stands_before (settled : s.Settled report limit) (keyed : s.registry.Keyed)
    (reads : s.Reads e) (stands : (s.after e).registry.contextAt? key = some id)
    (found : (s.after e).registry.context? id = some c) (workspace : c.isWorkspace = true) :
    s.registry.contextAt? key = some id ∧
      ∃ old, s.registry.context? id = some old ∧ old.isWorkspace = true ∧
        c.mainFile? = old.mainFile? := by
  have before : s.registry.contextAt? key = some id := by
    cases made : s.change? e with
    | none =>
      rw [registry_after, made] at stands
      exact stands
    | some change =>
      rw [registry_after, made] at stands
      refine (Registry.contextAt?_of_apply stands).resolve_right fun missing => ?_
      rw [settled.isWorkspace_of_made reads missing found] at workspace
      cases workspace
  obtain ⟨old, known, -⟩ := keyed key id before
  obtain ⟨later, foundLater, mainFile, -, isWorkspace⟩ := settled.context?_after reads known
  rw [found, Option.some.injEq] at foundLater
  subst foundLater
  exact ⟨before, old, known, isWorkspace.symm.trans workspace, mainFile⟩

theorem tied_after (settled : s.Settled report limit) (keyed : s.registry.Keyed)
    (reads : s.Reads e) (tied : s.registry.Tied w) : (s.after e).registry.Tied w := by
  intro id stands workspace
  obtain ⟨c, found, workspace⟩ := (Option.any_eq_true _ _).mp workspace
  obtain ⟨before, old, known, wasWorkspace, -⟩ :=
    settled.stands_before keyed reads stands found workspace
  exact tied id before (by simp [Registry.isWorkspace, known, wasWorkspace])

theorem fits_after (settled : s.Settled report limit) (keyed : s.registry.Keyed)
    (reads : s.Reads e) (fits : s.registry.Fits path owner) :
    (s.after e).registry.Fits path owner := by
  intro id c stands found workspace nothing
  obtain ⟨before, old, known, wasWorkspace, mainFile⟩ :=
    settled.stands_before keyed reads stands found workspace
  exact fits id old before known wasWorkspace (mainFile.symm.trans nothing)

/-- A workspace that has been found to include a path has a main file. -/
theorem fits_of_knows (settled : s.Settled report limit) (tied : s.registry.Tied w)
    (included : s.registry.knows path w = true) : s.registry.Fits path w.root := by
  intro id c stands found workspace nothing
  obtain rfl := tied id stands (by simp [Registry.isWorkspace, found, workspace])
  obtain presents | ⟨blank, -⟩ := settled.contexts found
  · exact absurd (Context.target?_eq_none_iff.mpr ⟨workspace, nothing⟩) presents.target
  · simp [Registry.knows, found, blank.symbols, Symbols.SymbolTable.includes] at included

end Settled

/-! ## The search -/

/-- Once a search has read which workspaces are open, it has ever fewer of them to look at. -/
theorem Follows.surveys_sublist (follows : s.Follows a b)
    (begun : ∀ path goal, a ≠ .resolve path goal) : b.surveys.Sublist a.surveys := by
  cases follows with
  | opens => exact absurd rfl (begun _ _)
  | passes => exact (List.Sublist.refl _).append (List.sublist_cons_self _ _)
  | searches => exact List.sublist_append_left _ _
  | awaits => exact .refl _
  | skips | lacks => exact List.sublist_cons_self _ _
  | _ => exact List.nil_sublist _

/-- A search for the context of a path that will hand out one that suits it. -/
structure Sound (s : State) (path : Path) (a : Activity) : Prop where
  seeks : a.seeks? = some (path, .fetch true)
  tied : ∀ w ∈ a.surveys, s.registry.Tied w
  fits : ∀ owner, a = .settle path (.fetch true) owner → s.registry.Fits path owner

theorem Sound.after (sound : s.Sound path a) (settled : s.Settled report limit)
    (keyed : s.registry.Keyed) (reads : s.Reads e) : (s.after e).Sound path a :=
  ⟨sound.seeks, fun w member => settled.tied_after keyed reads (sound.tied w member),
    fun owner settles => settled.fits_after keyed reads (sound.fits owner settles)⟩

theorem sound_settle {q : Query} (seeks : some (q.path, q.goal) = some (path, .fetch true))
    (fits : s.registry.Fits q.path owner) : s.Sound path (.settle q.path q.goal owner) := by
  obtain ⟨rfl, goal⟩ := Prod.mk.inj (Option.some.inj seeks)
  refine ⟨by rw [goal]; rfl, fun _ member => absurd member List.not_mem_nil,
    fun other settles => ?_⟩
  obtain ⟨-, -, rfl⟩ := Activity.settle.inj settles
  exact fits

theorem Sound.follows (sound : s.Sound path a) (settled : s.Settled report limit)
    (follows : s.Follows a b) : s.Sound path b := by
  obtain ⟨seeks, tied, fits⟩ := sound
  have fewer := follows.surveys_sublist
  cases follows with
  | opens =>
    refine ⟨seeks, fun w member => Registry.tied_of_mem_candidates ?_, nofun⟩
    exact (List.mem_append.mp member).elim id id
  | alone =>
    cases seeks
    exact sound_settle (q := ⟨path, .fetch true, []⟩) rfl (Registry.fits_self _ path)
  | enters entered =>
    exact sound_settle seeks ((tied _ (by simp [Activity.surveys])).fits_of_enters entered)
  | includes included =>
    exact sound_settle seeks (settled.fits_of_knows (tied _ (by simp [Activity.surveys])) included)
  | unowned => exact sound_settle seeks (Registry.fits_self _ _)
  | passes | searches | awaits | skips | lacks =>
    exact ⟨seeks, fun w member => tied w ((fewer nofun).subset member), nofun⟩
  | _ => cases seeks

theorem Sound.hands_out (sound : s.Sound path a) (keyed : s.registry.Keyed)
    (activity : s.activity? task = some a) {answer : Answer}
    (ends : (s.turn task a).next = .ended answer) :
    ∃ id c, answer = .context (some id) ∧
      (s.after (.advance task)).registry.context? id = some c ∧ c.Suits path := by
  obtain ⟨owner, rfl⟩ | ⟨b, goes, -⟩ := s.seeks?_turn task sound.seeks
  · have registry : (s.after (.advance task)).registry = (s.registry.obtain owner true).1 := by
      rw [registry_after]
      simp only [change?, activity, Option.bind_some]
      rfl
    rw [registry]
    obtain ⟨id, stands, equal⟩ | ⟨_, never, _⟩ | ⟨missing, _, equal⟩ :=
      s.registry.obtain_cases owner true
    · -- What was registered under the owner is handed out, and so it fits.
      obtain ⟨c, found, root⟩ := keyed owner id stands
      refine ⟨id, c, ?_, by rwa [equal], fun workspace nothing => ?_⟩
      · simp only [turn, settleOwner, equal] at ends
        exact (Next.ended.inj ends).symm
      · exact (sound.fits owner rfl id c stands found workspace nothing).trans root.symm
    · cases never
    · refine ⟨s.registry.store.length, .standalone owner s.registry.settings, ?_, ?_,
        fun workspace => absurd workspace Bool.false_ne_true⟩
      · simp only [turn, settleOwner, equal] at ends
        exact (Next.ended.inj ends).symm
      · rw [equal]
        simp [Registry.context?]
  · rw [ends] at goes
    cases goes

/-- If a task has answered, it has handed out a context that suits the path. -/
def HandsOut (s : State) (path : Path) (task : TaskId) : Prop :=
  ∀ answer, s.answer? task = some answer →
    ∃ id c, answer = .context (some id) ∧ s.registry.context? id = some c ∧ c.Suits path

theorem sound_advance (settled : s.Settled report limit) (inOrder : s.InOrder) {moved : TaskId}
    (old : task < s.taskCount) (sound : ∀ a, s.activity? task = some a → s.Sound path a)
    (activity : (s.advance moved).activity? task = some b) : (s.advance moved).Sound path b := by
  have course : Course s (.advance moved) task b := course inOrder.roster activity
  cases course with
  | stays _ before =>
    exact (sound b before).after settled inOrder.keyed (e := .advance moved) trivial
  | moves before goes =>
    exact ((sound _ before).follows settled (follows_turn goes)).after settled inOrder.keyed
      (e := .advance task) trivial
  | begins => exact absurd old (Nat.lt_irrefl _)

theorem HandsOut.advance (handsOut : s.HandsOut path task) (settled : s.Settled report limit)
    (inOrder : s.InOrder) {moved : TaskId}
    (sound : ∀ a, s.activity? task = some a → s.Sound path a) :
    (s.advance moved).HandsOut path task := by
  intro answer answered
  obtain before | gives := answered_before (e := .advance moved) answered
  · obtain ⟨id, c, same, found, suits⟩ := handsOut answer before
    obtain ⟨later, foundLater, suitsLater⟩ :=
      settled.suits_after (e := .advance moved) trivial found suits
    exact ⟨id, later, same, foundLater, suitsLater⟩
  · obtain ⟨moves, a, activity, ends⟩ := eq_advance_of_mem_answersBy gives
    obtain rfl := Event.advance.inj moves
    exact (sound a activity).hands_out inOrder.keyed activity ends

/-- Whoever asks for the context of a path, and has a missing one made, is given one that suits the
path, on every schedule. -/
theorem Settled.yields_get (settled : s.Settled report limit) (inOrder : s.InOrder)
    (placed : s.Placed) (path : Path) :
    s.Yields (.get path true) fun asked answer =>
      asked.InOrder ∧ asked.Placed ∧ asked.Settled report limit ∧
        ∃ id c, answer = .context (some id) ∧ asked.registry.context? id = some c ∧
          c.Suits path := by
  refine yields_of_invariant inOrder placed
    (fun t => t.Settled report limit ∧ s.taskCount < t.taskCount ∧
      (∀ a, t.activity? s.taskCount = some a → t.Sound path a) ∧ t.HandsOut path s.taskCount)
    ?_ ?_ ?_ ?_
  · have begun : (s.perform (.get path true)).1.activity? s.taskCount =
        some (.resolve path (.fetch true)) := activity?_begin_new inOrder.roster _
    have silent : s.answer? s.taskCount = none :=
      answer?_eq_none_of_le inOrder.answered (Nat.le_refl _)
    refine ⟨settled.after inOrder (e := .perform (.get path true)) rfl, Nat.lt_succ_self _,
      fun a activity => ?_, fun answer answered => ?_⟩
    · rw [begun, Option.some.injEq] at activity
      subst activity
      exact ⟨rfl, fun _ member => absurd member List.not_mem_nil, nofun⟩
    · have before : s.answer? s.taskCount = some answer := answered
      rw [silent] at before
      cases before
  · rintro t moved inOrderNow ⟨settledNow, begun, sound, handsOut⟩ ready
    exact ⟨settledNow.after inOrderNow (e := .advance moved) trivial,
      Nat.lt_of_lt_of_le begun (taskCount_le_after t (.advance moved)),
      fun b activity => sound_advance settledNow inOrderNow begun sound activity,
      handsOut.advance settledNow inOrderNow sound⟩
  · rintro t ⟨settledNow, -⟩
    exact settledNow.neverHolds
  · rintro t answer inOrderNow placedNow ⟨settledNow, -, -, handsOut⟩ - answered
    exact ⟨inOrderNow, placedNow, settledNow, handsOut answer answered⟩

end State

end Engine

end PawnQuery
