import PawnQuery.CommandLine.Run
import PawnQuery.Proofs.Path.Components
import PawnQuery.Proofs.Registry.Fetched

/-!
# The findings of a command that replays a report

A command opens the first workspaces and then reads the context of a path: it asks for the context,
has a script compiled, and waits until nothing runs.  Meanwhile invocations, their publications and
the sweeps that follow go on in the background.  If all invocations are answered with one report,
what the command reads is found in this report, on every schedule and whichever way the context was
found; only the folder of a workspace without main file leads to a context without findings.
-/

namespace PawnQuery.CommandLine

open PawnQuery.Compiler (Backend Replay)
open PawnQuery.Context (Timestamp)
open PawnQuery.Engine (State Answer)
open PawnQuery.Files (FileTree)
open PawnQuery.Report (withoutReturns)
open PawnQuery.Symbols (Findings)

variable {start opened : State} {config : Config} {path : Path} {report : String} {limit : Nat}

/-! ## Every schedule -/

/-- On every schedule the first workspaces come to be registered, if files are routed to workspaces,
and the state is as it should be then and any time later. -/
def OpensTo (start : State) (config : Config) (post : State → Prop) : Prop :=
  if config.workspaceSupport then
    start.Yields (.create config.workspaces) fun opened _ => post opened
  else post start

/-- On every schedule the context of a path is handed out, the context of a script is compiled, and
whoever has waited for it finds that it is as it should be. -/
def ReadsTo (opened : State) (path : Path) (post : Context → Prop) : Prop :=
  ∃ seen, filePath opened.files path = .ok seen ∧
    opened.Yields (.get seen true) fun asked answer => ∃ id, answer = .context (some id) ∧
      (if asked.registry.isWorkspace id then asked else asked.run id).Yields (.wait id)
        fun done _ => ∃ c, done.registry.context? id = some c ∧ post c

theorem OpensTo.mono {post other : State → Prop} (opens : OpensTo start config post)
    (weaker : ∀ opened, post opened → other opened) : OpensTo start config other := by
  unfold OpensTo at opens ⊢
  split
  next support =>
    rw [if_pos support] at opens
    exact opens.mono fun opened _ => weaker opened
  next support =>
    rw [if_neg support] at opens
    exact weaker start opens

theorem OpensTo.openWorkspaces {post : State → Prop} (opens : OpensTo start config post)
    (inOrder : start.InOrder) : post (openWorkspaces start config) := by
  unfold OpensTo at opens
  unfold CommandLine.openWorkspaces
  split
  next support =>
    rw [if_pos support] at opens
    obtain ⟨_, -, holds⟩ := opens.performAndDrain inOrder
    exact holds
  next support =>
    rwa [if_neg support] at opens

theorem ReadsTo.contextOf {post : Context → Prop} (reads : ReadsTo opened path post)
    (inOrder : opened.InOrder) : ∃ c, contextOf opened path = .ok c ∧ post c := by
  obtain ⟨seen, sees, gets⟩ := reads
  obtain ⟨_, answered, id, rfl, waits⟩ := gets.performAndDrain inOrder
  have asked := inOrder.of_reaches (State.reaches_performAndDrain opened (.get seen true))
  have pair : opened.performAndDrain (.get seen true) =
      ((opened.performAndDrain (.get seen true)).1, some (.context (some id))) :=
    Prod.ext rfl answered
  generalize (opened.performAndDrain (.get seen true)).1 = after at waits asked pair
  have begun : (if after.registry.isWorkspace id then after else after.run id).InOrder := by
    split
    · exact asked
    · exact asked.after (e := .run id) trivial
  obtain ⟨_, -, c, found, holds⟩ := waits.performAndDrain begun
  have parsed : parsedContext? opened seen = some c := by
    rw [parsedContext?, pair]
    exact found
  refine ⟨c, ?_, holds⟩
  simp only [CommandLine.contextOf, sees, bind, Except.bind, parsed]
  rfl

/-! ## The report on every schedule -/

theorem filePath_of_isAbsolute (absolute : path.isAbsolute = true) (files : FileTree) :
    filePath files path = .ok (Path.absolute files.workingDirectory path) := by
  have present : path.isEmpty = false := by
    obtain ⟨rest, text⟩ := Path.exists_text_of_isAbsolute absolute
    rw [Path.isEmpty, Bool.eq_false_iff, ne_eq, String.isEmpty_iff]
    rintro empty
    rw [empty] at text
    cases text
  rw [filePath, absolutePath, if_neg (by simp [present])]
  rfl

/-- Once the workspaces are open, everybody reads what is found in the report. -/
theorem readsTo_of_settled (settled : opened.Settled report limit) (inOrder : opened.InOrder)
    (placed : opened.Placed) (absolute : path.isAbsolute = true) :
    ReadsTo opened path fun c => c.ShowsFor path (State.findingsIn report limit) := by
  have same := Path.same_absolute opened.files.workingDirectory absolute
  refine ⟨_, filePath_of_isAbsolute absolute opened.files,
    (settled.yields_get inOrder placed _).mono ?_⟩
  rintro asked answer ⟨inOrderNow, placedNow, settledNow, id, c, rfl, found, suits⟩
  have suits : c.Suits path := fun workspace nothing => same.trans (suits workspace nothing)
  refine ⟨id, rfl, ?_⟩
  have kind : asked.registry.isWorkspace id = c.isWorkspace := by
    simp [Registry.isWorkspace, found]
  cases workspace : c.isWorkspace with
  | true =>
    rw [if_pos (kind.trans workspace)]
    exact settledNow.yields_wait inOrderNow placedNow found
      (settledNow.serves_of_suits found workspace suits)
  | false =>
    have script := kind.trans workspace
    obtain ⟨later, foundLater, serves⟩ := settledNow.serves_run found workspace path
    rw [if_neg (by simp [script])]
    exact (settledNow.after (e := .run id) inOrderNow script).yields_wait
      (inOrderNow.after (e := .run id) trivial) (placedNow.run inOrderNow.roster id) foundLater
      serves

theorem initial_initialState (config : Config) (compiler : Backend) (files : FileTree)
    (now : Timestamp) : (initialState config compiler files now).Initial :=
  ⟨rfl, rfl, rfl, rfl, rfl, rfl, fun _ member => absurd member List.not_mem_nil⟩

/-- Once the first workspaces are registered, no workspace is being opened or closed. -/
theorem opensTo_of_repeats {compiler : Backend} (repeats : compiler.Repeats report)
    (config : Config) (files : FileTree) (now : Timestamp) :
    OpensTo (initialState config compiler files now) config fun opened =>
      opened.InOrder ∧ opened.Placed ∧ opened.Settled report config.outputLimit := by
  have inOrder := (initial_initialState config compiler files now).inOrder
  have nobody : ∀ task, (initialState config compiler files now).activity? task = none :=
    fun _ => rfl
  have placed : (initialState config compiler files now).Placed :=
    State.placed_of_tasks_eq_nil rfl
  unfold OpensTo
  split
  · refine State.yields_of_invariant inOrder placed
      (fun t => t.Replayed report config.outputLimit
        (initialState config compiler files now).taskCount) ?_ ?_ ?_ ?_
    · refine State.replayed_of_empty repeats rfl rfl fun task a activity => ?_
      have new := (State.activity?_begin _ _ task).symm.trans activity
      rw [nobody, Option.none_or] at new
      split at new
      next same => exact ⟨same.symm, .create config.workspaces, (Option.some.inj new).symm⟩
      next => cases new
    · exact fun t moved inOrderNow replayed _ =>
        replayed.after inOrderNow (e := .advance moved) trivial
    · exact fun t replayed => Engine.neverHolds_of_repeats replayed.compiler
    · exact fun t _ inOrderNow placedNow replayed ended _ =>
        ⟨inOrderNow, placedNow, replayed.settled ended⟩
  · refine ⟨inOrder, placed, ?_⟩
    have replayed : (initialState config compiler files now).Replayed report config.outputLimit 0 :=
      State.replayed_of_empty repeats rfl rfl fun task a activity => by
        rw [nobody] at activity
        cases activity
    exact replayed.settled (nobody 0)

theorem findingsIn_eq (report : String) (limit : Nat) :
    State.findingsIn report limit =
      .ofReport (Text.decodeLossy ((withoutReturns report.toUTF8.toList).take limit)) := by
  rw [State.findingsIn, Report.ByteStream.textWithin, Report.ByteStream.delivered_ofText]

/-- The context of an absolute path that a command reads while a report is replayed is at rest and
shows what is found in the first bytes of the report, carriage returns left out; only a workspace
without main file has no findings, and the path is its folder.  This holds for every configuration
and every file system, when tasks move first come, first served as well as on any other schedule. -/
theorem read_context_shows_report (config : Config) (report : String) (files : FileTree)
    (now : Timestamp) (path : Path) (absolute : path.isAbsolute = true) :
    let start := initialState config (.replay (({} : Replay).setFallback report)) files now
    let found := Findings.ofReport
      (Text.decodeLossy ((withoutReturns report.toUTF8.toList).take config.outputLimit))
    (∃ c, contextOf (openWorkspaces start config) path = .ok c ∧ c.ShowsFor path found) ∧
      OpensTo start config fun opened => ReadsTo opened path fun c => c.ShowsFor path found := by
  intro start found
  have inOrder : start.InOrder := (initial_initialState config _ files now).inOrder
  have repeats : (Backend.replay (({} : Replay).setFallback report)).Repeats report :=
    Compiler.Replay.repeats_setFallback report
  have opens := opensTo_of_repeats repeats config files now
  have same : State.findingsIn report config.outputLimit = found := findingsIn_eq report _
  rw [← same]
  refine ⟨?_, opens.mono fun opened ⟨inOrderNow, placed, settled⟩ =>
    readsTo_of_settled settled inOrderNow placed absolute⟩
  obtain ⟨inOrderNow, placed, settled⟩ := opens.openWorkspaces inOrder
  exact (readsTo_of_settled settled inOrderNow placed absolute).contextOf inOrderNow

/-- Two workspaces, the second one without main file, and a report that is cut. -/
def shortConfig : Config where
  outputLimit := 100
  workspaces := [{ root := ⟨"/w"⟩, mainFile := some "main.pwn" }, { root := ⟨"/v"⟩ }]

/-- The report names an included file and then a tag; what follows is beyond the limit. -/
def includingReport : String :=
  "\x7b\"kind\":\"includedFiles\",\"payload\":[\"/w/util.inc\"]\x7d\r\n" ++
    "\x7b\"kind\":\"tags\",\"payload\":[\x7b\"name\":\"é\"\x7d]\x7d\r\n" ++
    "\x7b\"kind\":\"tags\",\"payload\":[\x7b\"name\":\"late\"\x7d]\x7d\r\n"

/-- A file that a workspace includes, a script on its own and the folder of a workspace without main
file are read. -/
theorem read_context_shows_report_includingReport :
    let start := initialState shortConfig (.replay (({} : Replay).setFallback includingReport)) {}
      ⟨0, 0⟩
    let read (path : Path) := contextOf (openWorkspaces start shortConfig) path
    let found := Findings.ofReport
      (Text.decodeLossy ((withoutReturns includingReport.toUTF8.toList).take 100))
    found.symbols.tags.map (·.name) = ["é"] ∧
      (∃ c, read ⟨"/w//util.inc"⟩ = .ok c ∧ c.ShowsFor ⟨"/w//util.inc"⟩ found ∧ c.root = ⟨"/w"⟩) ∧
      (∃ c, read ⟨"/a.pwn"⟩ = .ok c ∧ c.ShowsFor ⟨"/a.pwn"⟩ found ∧ c.isWorkspace = false) ∧
      ∃ c, read ⟨"/v/"⟩ = .ok c ∧ c.ShowsFor ⟨"/v/"⟩ found ∧ c.isWorkspace = true ∧
        c.mainFile? = none := by
  intro start read found
  have names : found.symbols.tags.map (·.name) = ["é"] := by decide +kernel
  have shown : ∀ path : Path, path.isAbsolute = true →
      ∃ c, read path = .ok c ∧ c.ShowsFor path found := fun path absolute =>
    (read_context_shows_report shortConfig includingReport {} ⟨0, 0⟩ path absolute).1
  obtain ⟨owner, readOwner, ownerShows⟩ := shown ⟨"/w//util.inc"⟩ (by decide)
  obtain ⟨script, readScript, scriptShows⟩ := shown ⟨"/a.pwn"⟩ (by decide)
  obtain ⟨folder, readFolder, folderShows⟩ := shown ⟨"/v/"⟩ (by decide)
  have root : (read ⟨"/w//util.inc"⟩).toOption.map (·.root) = some ⟨"/w"⟩ := by decide +kernel
  have single : (read ⟨"/a.pwn"⟩).toOption.map (·.isWorkspace) = some false := by decide +kernel
  have idle : (read ⟨"/v/"⟩).toOption.map (fun c => (c.isWorkspace, c.mainFile?)) =
      some (true, none) := by decide +kernel
  rw [readOwner, Except.toOption, Option.map_some, Option.some.injEq] at root
  rw [readScript, Except.toOption, Option.map_some, Option.some.injEq] at single
  rw [readFolder, Except.toOption, Option.map_some, Option.some.injEq, Prod.mk.injEq] at idle
  exact ⟨names, ⟨owner, readOwner, ownerShows, root⟩, ⟨script, readScript, scriptShows, single⟩,
    folder, readFolder, folderShows, idle⟩

end PawnQuery.CommandLine
