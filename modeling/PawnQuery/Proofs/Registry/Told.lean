import PawnQuery.Proofs.Registry.Fetched
import PawnQuery.Proofs.Registry.Hindrance

/-!
# The owner that is told

A search for an owner reads once which workspaces are open, when it begins, and goes through these
whatever happens meanwhile.  So the owner that it tells is the folder of one of them, or the path
that was asked about.
-/

namespace PawnQuery

namespace Registry

variable {r : Registry} {path key : Path}

/-- A search that reads this registry can tell the path itself, or the folder of a workspace. -/
def Offers (r : Registry) (path key : Path) : Prop :=
  key = path ∨ ∃ w ∈ r.candidates, w.root = key

theorem Offers.contains (offers : r.Offers path key) (other : ¬ key.Same path) :
    r.workspaces.contains key = true := by
  obtain rfl | ⟨w, member, rfl⟩ := offers
  · exact absurd (.refl _) other
  · exact Path.Map.contains_iff_mem_keys.mpr ⟨w.root, (mem_candidates.mp member).1, .refl _⟩

end Registry

namespace Engine.State

variable {s : State} {r : Registry} {task : TaskId} {a b : Activity} {path : Path}

/-! ## One search -/

/-- A search for the owner of a path among the workspaces that were open when it began. -/
structure SeeksAmong (r : Registry) (path : Path) (a : Activity) : Prop where
  seeks : a.seeks? = some (path, .tell)
  begun : ∀ asked goal, a ≠ .resolve asked goal
  listed : ∀ w ∈ a.surveys, w ∈ r.candidates
  settles : ∀ owner, a = .settle path .tell owner → r.Offers path owner

theorem seeksAmong_settle {q : Query} {owner : Path}
    (seeks : some (q.path, q.goal) = some (path, .tell)) (offers : r.Offers q.path owner) :
    SeeksAmong r path (.settle q.path q.goal owner) := by
  obtain ⟨rfl, goal⟩ := Prod.mk.inj (Option.some.inj seeks)
  refine ⟨by rw [goal]; rfl, nofun, fun _ member => absurd member List.not_mem_nil,
    fun other settles => ?_⟩
  obtain ⟨-, -, rfl⟩ := Activity.settle.inj settles
  exact offers

/-- The first section of a search reads which workspaces are open. -/
theorem Follows.seeksAmong (follows : s.Follows (.resolve path .tell) b) :
    SeeksAmong s.registry path b := by
  cases follows with
  | opens => exact ⟨rfl, nofun, fun w member => (List.mem_append.mp member).elim id id, nofun⟩
  | alone => exact seeksAmong_settle (q := ⟨path, .tell, []⟩) rfl (.inl rfl)

/-- The sections after it read nothing that adds to them. -/
theorem SeeksAmong.follows (among : SeeksAmong r path a) (follows : s.Follows a b) :
    SeeksAmong r path b := by
  obtain ⟨seeks, begun, listed, settles⟩ := among
  have fewer := follows.surveys_sublist begun
  cases follows with
  | opens | alone => exact absurd rfl (begun _ _)
  | enters | includes =>
    exact seeksAmong_settle seeks (.inr ⟨_, listed _ (by simp [Activity.surveys]), rfl⟩)
  | unowned => exact seeksAmong_settle seeks (.inl rfl)
  | passes | searches | awaits | skips | lacks =>
    refine ⟨seeks, ?begun, fun w member => listed w (fewer.subset member), ?settles⟩
    case begun => rintro asked goal ⟨⟩
    case settles => rintro owner ⟨⟩
  | _ => cases seeks

theorem SeeksAmong.tells (among : SeeksAmong r path a) {answer : Answer}
    (ends : (s.turn task a).next = .ended answer) :
    ∃ key, answer = .owner key ∧ r.Offers path key := by
  obtain ⟨owner, rfl⟩ | ⟨b, goes, -⟩ := s.seeks?_turn task among.seeks
  · cases ends
    exact ⟨owner, rfl, among.settles owner rfl⟩
  · rw [ends] at goes
    cases goes

/-- In the course of these events the owner of a path is asked for and told; the search begins with
this registry. -/
structure Tells (s : State) (path : Path) (es : List Event) (key : Path) (read : Registry) :
    Prop where
  begins : ∃ between later,
    es = .perform (.resolve path) :: between ++ .advance s.taskCount :: later ∧
      (∀ e ∈ between, e ≠ .advance s.taskCount) ∧
      (s.afterAll (.perform (.resolve path) :: between)).registry = read
  answered : (s.afterAll es).answer? s.taskCount = some (.owner key)

/-- A search that begins now goes through the workspaces that are open now, whatever follows. -/
theorem owner_of_search (roster : s.Roster)
    (activity : s.activity? task = some (.resolve path .tell))
    (unanswered : s.answer? task = none) {later : List Event} {answer : Answer}
    (answered : (s.afterAll (.advance task :: later)).answer? task = some answer) :
    ∃ key, answer = .owner key ∧ s.registry.Offers path key := by
  obtain ⟨owner, settled⟩ | ⟨b, goes, -⟩ := s.seeks?_turn task (a := .resolve path .tell) rfl
  · cases settled
  have next : (s.after (.advance task)).activity? task = some b := by
    rw [after, activity?_advance activity (roster.number_lt activity), if_pos rfl]
    exact goes
  have quiet : (s.after (.advance task)).answer? task = none :=
    (answer?_after_of_silent (silent_of_goes activity goes)).trans unanswered
  obtain ⟨during, rest, c, -, -, among, ends⟩ := ended_of_answered (SeeksAmong s.registry path)
    (fun _ _ _ among goes => among.follows (follows_turn goes)) (roster.after _) next
    (follows_turn goes).seeksAmong quiet answered
  exact among.tells ends

/-- However a search is interleaved with other events, what it answers is an owner, which is the
path itself or the folder of a workspace that was open when the search began. -/
theorem owner_of_answered (roster : s.Roster) (unanswered : s.answer? s.taskCount = none)
    {between later : List Event} (unmoved : ∀ e ∈ between, e ≠ .advance s.taskCount)
    {answer : Answer}
    (answered : (s.afterAll
      (.perform (.resolve path) :: between ++ .advance s.taskCount :: later)).answer? s.taskCount =
        some answer) :
    ∃ key, answer = .owner key ∧
      (s.afterAll (.perform (.resolve path) :: between)).registry.Offers path key := by
  have silent := silent_of_asked unanswered (.resolve path) unmoved
  rw [afterAll_append] at answered
  obtain ⟨old, stays | dropped⟩ := asked_of_unmoved roster (.resolve path) unmoved
  · have rosterNow := roster.afterAll (.perform (.resolve path) :: between)
    exact owner_of_search rosterNow stays silent answered
  · rw [answer?_afterAll_of_ended old dropped, silent] at answered
    cases answered

theorem Tells.offers {es : List Event} {key : Path} (tells : s.Tells path es key r)
    (roster : s.Roster) (unanswered : s.answer? s.taskCount = none) : r.Offers path key := by
  obtain ⟨⟨between, later, rfl, unmoved, rfl⟩, answered⟩ := tells
  obtain ⟨owner, same, offers⟩ := owner_of_answered roster unanswered unmoved answered
  cases same
  exact offers

/-- While the compiler holds nothing back, whoever asks for an owner and waits until nothing can
move is told one. -/
theorem exists_tells (inOrder : s.InOrder) (placed : s.Placed) (holds : NeverHolds s.compiler)
    (path : Path) :
    ∃ es key read, s.Possible es ∧ s.Tells path es key read ∧
      s.performAndDrain (.resolve path) = (s.afterAll es, some (.owner key)) := by
  obtain ⟨answer, answered, -⟩ :=
    (yields_of_neverHolds inOrder placed holds (.resolve path)).performAndDrain inOrder
  have drains : (s.perform (.resolve path)).1.Reaches (s.perform (.resolve path)).1.drain :=
    .of_reflTransGen (reflTransGen_drainWithin _ _)
  obtain ⟨moves, possible, reached⟩ := drains
  have state : (s.performAndDrain (.resolve path)).1 =
      s.afterAll (.perform (.resolve path) :: moves) := reached.symm
  have unanswered : s.answer? s.taskCount = none :=
    answer?_eq_none_of_le inOrder.answered (Nat.le_refl _)
  have given : (s.afterAll (.perform (.resolve path) :: moves)).answer? s.taskCount =
      some answer := by
    rw [← state]
    exact answered
  have moved : .advance s.taskCount ∈ moves := by
    by_contra never
    have silent := silent_of_asked unanswered (.resolve path)
      fun e member same => never (same ▸ member)
    rw [given] at silent
    cases silent
  obtain ⟨between, later, rfl, first⟩ := List.eq_append_cons_of_mem moved
  have unmoved : ∀ e ∈ between, e ≠ .advance s.taskCount := fun e member same =>
    first (same ▸ member)
  obtain ⟨key, rfl, -⟩ := owner_of_answered inOrder.roster unanswered unmoved given
  have possibleAll : s.Possible
      (.perform (.resolve path) :: (between ++ .advance s.taskCount :: later)) :=
    ⟨trivial, possible⟩
  exact ⟨_, key, _, possibleAll, ⟨⟨between, later, rfl, unmoved, rfl⟩, given⟩,
    Prod.ext state answered⟩

end Engine.State

end PawnQuery
