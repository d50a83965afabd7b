import PawnQuery.Proofs.CommandLine.ParsedContext
import PawnQuery.Proofs.Json.Tokens
import PawnQuery.Proofs.Registry.Told

/-!
# The marks of owners

A command tells the owners of files one after the other and marks each as a workspace or as a script
on its own.  The mark compares the owner with the file that was asked about, and no registry is
looked at.  Nevertheless it tells whether the owner is the folder of an open workspace, with one
exception: the folder of a workspace is its own owner, and it is marked like a script.
-/

namespace PawnQuery

/-! ## Marks -/

namespace Output.Resolution

variable {screen : Screen} {r : Resolution} {tables : Registry}

/-- The line that marks the owner as a workspace, or as a script on its own. -/
def lineMarked (screen : Screen) (workspace : Bool) (r : Resolution) : String :=
  r.path.text ++ " -> " ++ screen.paint .cyan r.key.text ++ " " ++
    if workspace then screen.paint .green "(workspace)" else screen.paint .dimmed "(standalone)"

/-- The mark tells whether the owner is the folder of a workspace that is open in this registry. -/
def IsMarked (screen : Screen) (tables : Registry) (r : Resolution) : Prop :=
  r.line screen = r.lineMarked screen (tables.workspaces.contains r.key)

theorem line_eq_lineMarked (screen : Screen) (r : Resolution) :
    r.line screen = r.lineMarked screen !r.isStandalone := by
  unfold line lineMarked
  cases r.isStandalone <;> rfl

theorem marks_differ (screen : Screen) :
    screen.paint .green "(workspace)" ≠ screen.paint .dimmed "(standalone)" := by
  unfold Screen.paint
  cases screen.colors <;> decide

theorem lineMarked_inj {one other : Bool} :
    r.lineMarked screen one = r.lineMarked screen other ↔ one = other := by
  refine ⟨fun same => ?_, fun same => by rw [same]⟩
  unfold lineMarked at same
  have marks := (String.append_right_inj _).mp same
  cases one <;> cases other
  · rfl
  · exact absurd marks.symm (marks_differ screen)
  · exact absurd marks (marks_differ screen)
  · rfl

/-- An owner that a search can tell is marked rightly unless it is the path itself and an open
workspace. -/
theorem isMarked_iff (offers : tables.Offers r.path r.key) : r.IsMarked screen tables ↔
    ¬ (tables.workspaces.contains r.path = true ∧ r.key.Same r.path) := by
  rw [IsMarked, line_eq_lineMarked, lineMarked_inj]
  by_cases own : r.key.Same r.path
  · have mark : r.isStandalone = true := Path.same_iff.mpr own
    rw [mark, ← Path.Map.isSome_get?, Path.Map.get?_congr _ own, Path.Map.isSome_get?]
    simp [own]
  · have mark : r.isStandalone = false := eq_false_of_ne_true (mt Path.same_iff.mp own)
    rw [mark, offers.contains own]
    simp [own]

end Output.Resolution

namespace CommandLine

open PawnQuery.Compiler (Backend)
open PawnQuery.Engine (State Event NeverHolds)
open PawnQuery.Files (FileTree)
open PawnQuery.Output (Resolution Screen)

variable {s : State}

/-! ## One path after the other -/

/-- The owners of paths are told one after the other in the course of these events.  Each answer
comes with the registry with which its search began. -/
inductive Resolves : State → List Path → List Event → List (Resolution × Registry) → Prop where
  | nil {s : State} : Resolves s [] [] []
  | cons {s : State} {path key : Path} {paths : List Path} {es later : List Event}
      {read : Registry} {answers : List (Resolution × Registry)} (tells : s.Tells path es key read)
      (more : Resolves (s.afterAll es) paths later answers) :
      Resolves s (path :: paths) (es ++ later) ((⟨path, key⟩, read) :: answers)

theorem Resolves.offers {paths : List Path} {es during : List Event}
    {answers : List (Resolution × Registry)} (initial : s.Initial)
    (resolves : Resolves (s.afterAll es) paths during answers) :
    ∀ a ∈ answers, a.2.Offers a.1.path a.1.key := by
  generalize start : s.afterAll es = u at resolves
  induction resolves generalizing es with
  | nil => exact fun _ member => absurd member List.not_mem_nil
  | @cons u path key paths asking later read answers tells more inductionHypothesis =>
    subst start
    intro a member
    obtain rfl | rest := List.mem_cons.mp member
    · exact tells.offers (initial.roster.afterAll es) (initial.answer?_taskCount es)
    · exact inductionHypothesis (State.afterAll_append s es asking) a rest

/-- The program asks for one owner after the other. -/
theorem resolves_resolveOwners (inOrder : s.InOrder) (placed : s.Placed)
    (holds : NeverHolds s.compiler) (paths : List Path) :
    ∃ during answers, s.Possible during ∧ Resolves s paths during answers ∧
      (resolveOwners s paths).2 = answers.map (·.1) := by
  induction paths generalizing s with
  | nil => exact ⟨[], [], trivial, .nil, rfl⟩
  | cons path paths inductionHypothesis =>
    obtain ⟨es, key, read, possible, tells, told⟩ := State.exists_tells inOrder placed holds path
    obtain ⟨_, -, inOrderNow, placedNow, holdsNow⟩ :=
      (State.yields_of_neverHolds inOrder placed holds (.resolve path)).performAndDrain inOrder
    rw [told] at inOrderNow placedNow holdsNow
    obtain ⟨later, answers, possibleLater, resolves, answered⟩ :=
      inductionHypothesis inOrderNow placedNow holdsNow
    refine ⟨es ++ later, _, State.possible_append.mpr ⟨possible, possibleLater⟩,
      .cons tells resolves, ?_⟩
    rw [resolveOwners, resolveOwner, told, List.map_cons]
    exact congrArg _ answered

/-! ## The command -/

theorem resolutions_text (screen : Screen) (answers : List (Resolution × Registry)) :
    Output.resolutions .text screen (answers.map (·.1)) =
      Output.ofLines (answers.map fun a => a.1.line screen) := by
  rw [Output.resolutions, List.map_map]
  rfl

theorem answer_resolve {given paths : List Path} (named : given.mapM (filePath s.files) = .ok paths)
    (config : Config) (around : Surroundings) :
    (Command.resolve given).answer s config .text around =
      .ok (Output.resolutions .text around.screen (resolveOwners s paths).2) := by
  rw [Command.answer, named]
  rfl

/-- In every state that a run comes to and whatever happens while owners are asked for, each owner
has a line, and its mark tells whether the owner is the folder of a workspace that was open when the
search began, exactly if the path is not such a folder itself and its own owner.  While the compiler
holds nothing back, the command answers with the lines of the owners that are told in such a
course. -/
theorem marks_workspaces_iff (initial : s.Initial) {es : List Event} (possible : s.Possible es) :
    let u := s.afterAll es
    (∀ paths during answers screen, Resolves u paths during answers →
      Output.resolutions .text screen (answers.map (·.1)) =
          Output.ofLines (answers.map fun a => a.1.line screen) ∧
        ∀ a ∈ answers, a.1.IsMarked screen a.2 ↔
          ¬ (a.2.workspaces.contains a.1.path = true ∧ a.1.key.Same a.1.path)) ∧
    ∀ given paths config around, u.Placed → NeverHolds u.compiler →
      given.mapM (filePath u.files) = .ok paths →
      ∃ during answers, u.Possible during ∧ Resolves u paths during answers ∧
        (Command.resolve given).answer u config .text around =
          .ok (Output.resolutions .text around.screen (answers.map (·.1))) := by
  intro u
  refine ⟨fun paths during answers screen resolves => ⟨resolutions_text screen answers,
    fun a member => Resolution.isMarked_iff (resolves.offers initial a member)⟩, ?_⟩
  intro given paths config around placed holds named
  have inOrder : u.InOrder := initial.inOrder.of_reaches ⟨es, possible, rfl⟩
  obtain ⟨during, answers, possibleDuring, resolves, owners⟩ :=
    resolves_resolveOwners inOrder placed holds paths
  refine ⟨during, answers, possibleDuring, resolves, ?_⟩
  rw [answer_resolve named, owners]

/-- A workspace is opened, and its main file includes another file. -/
def includingRun : List Event :=
  let report := "\x7b\"kind\":\"includedFiles\",\"payload\":[\"/w/util.inc\"]\x7d"
  [.instruct (.record ⟨"/w/main.pwn"⟩ (.ofTexts report "")),
    .perform (.create [{ root := ⟨"/w"⟩, mainFile := some "main.pwn" }])] ++
    .replicate 6 (.advance 0) ++ .replicate 4 (.advance 1)

/-- Asked for an included file, for the folder and for some other script, the command marks the
folder like the script. -/
theorem marks_workspaces_iff_includingRun :
    State.Initial {} ∧ State.Possible {} includingRun ∧
      let u := State.afterAll {} includingRun
      let paths : List Path := [⟨"/w/util.inc"⟩, ⟨"/w/"⟩, ⟨"/x/a.pwn"⟩]
      u.Placed ∧ NeverHolds u.compiler ∧
        [⟨"/w/util.inc"⟩, ⟨"/w//"⟩, ⟨"/x/./a.pwn"⟩].mapM (filePath u.files) = .ok paths ∧
        ∃ during answers, Resolves u paths during answers ∧
          Output.resolutions .text {} (answers.map (·.1)) =
            "/w/util.inc -> /w (workspace)\n/w/ -> /w (standalone)\n" ++
              "/x/a.pwn -> /x/a.pwn (standalone)\n" ∧
          ∀ a ∈ answers, a.1.IsMarked {} a.2 ↔
            ¬ (a.2.workspaces.contains a.1.path = true ∧ a.1.key.Same a.1.path) := by
  have possible : State.Possible {} includingRun := by decide +kernel
  have placed : (State.afterAll {} includingRun).Placed :=
    State.placed_of_tasks_eq_nil (by decide +kernel)
  have holds : NeverHolds (State.afterAll {} includingRun).compiler := by decide +kernel
  have named : [⟨"/w/util.inc"⟩, ⟨"/w//"⟩, ⟨"/x/./a.pwn"⟩].mapM
      (filePath (State.afterAll {} includingRun).files) =
        .ok [⟨"/w/util.inc"⟩, ⟨"/w/"⟩, ⟨"/x/a.pwn"⟩] := by decide +kernel
  have text : (Command.resolve [⟨"/w/util.inc"⟩, ⟨"/w//"⟩, ⟨"/x/./a.pwn"⟩]).answer
      (State.afterAll {} includingRun) {} .text {} =
        .ok ("/w/util.inc -> /w (workspace)\n/w/ -> /w (standalone)\n" ++
          "/x/a.pwn -> /x/a.pwn (standalone)\n") := by decide +kernel
  obtain ⟨marks, answers⟩ := marks_workspaces_iff State.initial_default possible
  obtain ⟨during, answers, -, resolves, lines⟩ := answers _ _ {} {} placed holds named
  rw [text] at lines
  exact ⟨State.initial_default, possible, placed, holds, named, during, answers, resolves,
    (Except.ok.inj lines).symm, (marks _ _ _ {} resolves).2⟩

/-- Asked for the folder of an open workspace, the command tells this folder and marks it as a
script on its own. -/
theorem includingRun_marks_folder_as_script :
    State.Initial {} ∧ State.Possible {} includingRun ∧
      let u := State.afterAll {} includingRun
      let told : Resolution := ⟨⟨"/w"⟩, ⟨"/w"⟩⟩
      u.registry.workspaceSupport = true ∧
        (Command.resolve [⟨"/w"⟩]).answer u {} .text {} = .ok "/w -> /w (standalone)\n" ∧
        ∃ during read, u.Possible during ∧ Resolves u [⟨"/w"⟩] during [(told, read)] ∧
          read.workspaces.contains ⟨"/w"⟩ = true ∧ ¬ told.IsMarked {} read := by
  have tells : (State.afterAll {} includingRun).Tells ⟨"/w"⟩
      (.perform (.resolve ⟨"/w"⟩) :: .replicate 3 (.advance 2)) ⟨"/w"⟩
      ((State.afterAll {} includingRun).after (.perform (.resolve ⟨"/w"⟩))).registry := by
    have task : (State.afterAll {} includingRun).taskCount = 2 := by decide +kernel
    refine ⟨⟨[], .replicate 2 (.advance 2), by rw [task]; rfl, nofun, rfl⟩, ?_⟩
    rw [task]
    decide +kernel
  refine ⟨State.initial_default, by decide +kernel, by decide +kernel, by decide +kernel, _, _, ?_,
    .cons tells .nil, by decide +kernel, ?_⟩
  · decide +kernel
  · unfold Resolution.IsMarked
    decide +kernel

/-! ## The program -/

theorem neverHolds_backend {o : Options} {config : Config} {files : FileTree} {compiler : Backend}
    (found : o.backend config files = .ok compiler) : NeverHolds compiler := by
  unfold Options.backend at found
  split at found
  · cases found
    exact fun _ _ _ _ => rfl
  · obtain ⟨report, -, rfl⟩ := Json.map_eq_ok.mp found
    exact Engine.neverHolds_of_repeats (Compiler.Replay.repeats_setFallback report)

/-- Once the first workspaces are registered nobody is held back. -/
theorem placed_openWorkspaces (initial : s.Initial) (holds : NeverHolds s.compiler)
    (config : Config) :
    s.Reaches (openWorkspaces s config) ∧ (openWorkspaces s config).Placed ∧
      NeverHolds (openWorkspaces s config).compiler := by
  have placed : s.Placed := State.placed_of_tasks_eq_nil initial.tasks
  unfold openWorkspaces
  split
  · obtain ⟨_, -, -, placedNow, holdsNow⟩ := (State.yields_of_neverHolds initial.inOrder placed
      holds (.create config.workspaces)).performAndDrain initial.inOrder
    exact ⟨State.reaches_performAndDrain s _, placedNow, holdsNow⟩
  · exact ⟨.refl s, placed, holds⟩

/-- Whenever the program answers for readers which owners files have, the owners are told one after
the other in a state that a run comes to, and all marks are right but those of folders of open
workspaces. -/
theorem run_resolve {request : Request} {around : Surroundings} {given : List Path} {text : String}
    (asks : request.command = .resolve given) (readable : request.options.mode = .text)
    (ran : request.run around = .ok text) :
    ∃ (start : State) (es during : List Event) (paths : List Path)
      (answers : List (Resolution × Registry)), start.Initial ∧ start.Possible es ∧
      given.mapM (filePath (start.afterAll es).files) = .ok paths ∧
      Resolves (start.afterAll es) paths during answers ∧
      text = Output.ofLines (answers.map fun a => a.1.line around.screen) ∧
      ∀ a ∈ answers, a.1.IsMarked around.screen a.2 ↔
        ¬ (a.2.workspaces.contains a.1.path = true ∧ a.1.key.Same a.1.path) := by
  obtain ⟨config, -, ran⟩ := Json.bind_eq_ok.mp ran
  have other : request.command ≠ .checkCompiler := by rw [asks]; nofun
  rw [if_neg other] at ran
  obtain ⟨compiler, found, ran⟩ := Json.bind_eq_ok.mp ran
  have initial := initial_initialState config compiler around.files around.now
  obtain ⟨⟨es, possible, opened⟩, placed, holds⟩ :=
    placed_openWorkspaces initial (neverHolds_backend found) config
  have inOrder := initial.inOrder.of_reaches ⟨es, possible, opened⟩
  rw [asks, readable] at ran
  obtain ⟨paths, named, answered⟩ := Json.bind_eq_ok.mp ran
  obtain ⟨during, answers, -, resolves, owners⟩ :=
    resolves_resolveOwners inOrder placed holds paths
  rw [← opened] at named resolves
  refine ⟨_, es, during, paths, answers, initial, possible, named, resolves, ?_,
    fun a member => Resolution.isMarked_iff (resolves.offers initial a member)⟩
  cases answered
  rw [owners]
  exact resolutions_text around.screen answers

end CommandLine

end PawnQuery
