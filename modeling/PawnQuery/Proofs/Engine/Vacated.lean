import PawnQuery.Proofs.Engine.Replayed
import PawnQuery.Proofs.Engine.Shown

/-!
# Workspaces whose main file is taken away

A workspace without a main file has nothing to compile, so no invocation begins for it until it gets
one.  It may still have something to show.  To take the main file away clears the symbols and leaves
the diagnostics; and an invocation of the former main file that is under way then publishes whatever
it finds.
-/

namespace PawnQuery.Engine.State

open PawnQuery.Compiler (Reply)

variable {s : State} {id : ContextId} {es later : List Event} {c : Context}

/-- The event sets a main file without asking for an invocation. -/
def renamesQuietly (id : ContextId) (s : State) (e : Event) : Bool :=
  match s.contextChange? e id with
  | some (.setMainFile _ false) => true
  | _ => false

theorem clears_of_renames (found : s.registry.context? id = some c) (workspace : c.isWorkspace = true)
    {e : Event} (renamed : renames id s e = true) (loud : renamesQuietly id s e = false) :
    clears id s e = true := by
  unfold renames at renamed
  unfold renamesQuietly at loud
  unfold clears
  split at renamed
  next file reparse made =>
    cases reparse
    · simp [made] at loud
    · simpa [made, Registry.isWorkspace, found] using workspace
  next => cases renamed

theorem publishedBy_of_renames {e : Event} (renamed : renames id s e = true) :
    publishedBy id s e = [] ∧ begunBy id s e = [] := by
  unfold renames at renamed
  split at renamed
  next made => exact ⟨by simp [publishedBy, made], begunBy_of_not_begin (by simp [made])⟩
  next => cases renamed

/-! ## Nothing begins without a main file -/

/-- If a workspace ends up without a main file, no invocation has begun since one was last set. -/
theorem history_begunBy_of_nameless (kept : s.Always (fun s e => renames id s e = false) es)
    (found : (s.afterAll es).registry.context? id = some c) (workspace : c.isWorkspace = true)
    (nameless : c.mainFile = "") : s.history (begunBy id) es = [] := by
  by_contra some
  obtain ⟨before, e, since, last⟩ := exists_lastEntry some
  have begins : ((s.afterAll before).registry.context? id).any (·.begin.2.isSome) = true := by
    by_contra never
    exact last.adds (if_neg fun both => never both.2)
  obtain ⟨old, foundOld, begins⟩ := (Option.any_eq_true _ _).mp begins
  rw [last.split, always_append] at kept
  rw [last.split, afterAll_append] at found
  obtain ⟨final, foundFinal, mainFile, -, kind⟩ := mainFile_afterAll foundOld kept.2
  cases foundFinal.symm.trans found
  have nothing : old.target? = none := by
    simp [Context.target?, Context.mainFile?, ← kind, ← mainFile, workspace, nameless]
  obtain equal | ⟨target, -, targets, -⟩ := old.begin_cases
  · simp [equal] at begins
  · rw [nothing] at targets
    cases targets

theorem Underway.of_nothing_begun (initial : s.Initial) (possible : s.Possible (es ++ later))
    (nothing : (s.afterAll es).history (begunBy id) later = []) {first during : List Event}
    {start : Event} {carrier : TaskId}
    (underway : s.Underway id (es ++ later) first start during carrier) :
    ∃ rest, s.Underway id es first start rest carrier := by
  have last := underway.last initial possible
  have begun : s.history (begunBy id) es ≠ [] := by
    have some := last.history_ne_nil
    rwa [history_append, nothing, List.append_nil] at some
  obtain ⟨_, _, rest, lastBefore⟩ := exists_lastEntry begun
  obtain ⟨rfl, rfl, -⟩ := (lastBefore.append_right nothing).unique last
  exact ⟨rest, underway.earlier lastBefore.split⟩

/-! ## What becomes of the results -/

/-- While nothing is published, both tables stay but for the symbols, which may be cleared. -/
theorem tables_afterAll_of_unpublished (found : s.registry.context? id = some c)
    (nothing : s.history (publishedBy id) es = []) :
    ∃ last, (s.afterAll es).registry.context? id = some last ∧ last.diagnostics = c.diagnostics ∧
      last.symbols =
        if s.Always (fun s e => clears id s e = false) es then c.symbols else {} := by
  induction es generalizing s c with
  | nil => exact ⟨c, found, rfl, (if_pos trivial).symm⟩
  | cons e es inductionHypothesis =>
    obtain ⟨nothingNow, nothingLater⟩ := List.append_eq_nil_iff.mp nothing
    obtain ⟨next, foundNext, ⟨_, _, _, _, publishes, _⟩ | ⟨_, results⟩⟩ := results_after found e
    · rw [nothingNow] at publishes
      cases publishes
    · obtain ⟨last, foundLast, diagnostics, symbols⟩ := inductionHypothesis foundNext nothingLater
      simp only [always_cons]
      cases cleared : clears id s e with
      | true =>
        simp only [cleared, if_true, Context.results, Context.Results.clear,
          Context.Results.mk.injEq] at results
        exact ⟨last, foundLast, diagnostics.trans results.2.1, by simp [symbols, results.1]⟩
      | false =>
        simp only [cleared, Bool.false_eq_true, if_false, Context.results,
          Context.Results.mk.injEq] at results
        exact ⟨last, foundLast, diagnostics.trans results.2.1, by simp [symbols, results.1]⟩

/-- The last invocation to publish has left its findings, but for the symbols if they have been
cleared since. -/
theorem LastPublication.tables (initial : s.Initial) (possible : s.Possible es)
    {ran since : List Event} {carrier : TaskId} {reply : Reply} {held : Context}
    (publication : s.LastPublication id es ran carrier since reply held)
    (found : (s.afterAll es).registry.context? id = some c) :
    c.diagnostics = (held.collect reply.output).diagnostics ∧
      (((s.afterAll ran).after (.advance carrier)).Always (fun s e => clears id s e = false) since →
        c.symbols = (held.collect reply.output).symbols) := by
  have possibleRan : s.Possible ran := by
    rw [publication.last.split] at possible
    exact (possible_append.mp possible).1
  have collects := (collects_iff_answered initial possibleRan).mpr publication.answered
  obtain ⟨next, foundNext, ⟨_, _, same, activity, -, results⟩ | ⟨nothing, -⟩⟩ :=
    results_after publication.found (.advance carrier)
  · cases same
    cases collects.symm.trans activity
    simp only [Context.results, Context.Results.publish, Context.Results.mk.injEq] at results
    obtain ⟨last, foundLast, diagnostics, symbols⟩ :=
      tables_afterAll_of_unpublished foundNext publication.last.nothingSince
    rw [← publication.afterAll] at foundLast
    cases foundLast.symm.trans found
    refine ⟨diagnostics.trans results.2.1, fun uncleared => ?_⟩
    rw [symbols, if_pos uncleared, results.1]
  · exact absurd nothing publication.last.adds

theorem exists_lastPublication (initial : s.Initial) (possible : s.Possible es)
    (found : (s.afterAll es).registry.context? id = some c)
    (some : s.history (publishedBy id) es ≠ []) :
    ∃ ran carrier since reply held, s.LastPublication id es ran carrier since reply held := by
  have shows := (shows_afterAll initial possible id).1 c found
  generalize c.results = shown at shows
  cases shows with
  | nothing never => exact absurd never some
  | last publication => exact ⟨_, _, _, _, _, publication⟩

theorem tables_of_unpublished (initial : s.Initial) (possible : s.Possible es)
    (found : (s.afterAll es).registry.context? id = some c)
    (nothing : s.history (publishedBy id) es = []) : c.symbols = {} ∧ c.diagnostics = {} := by
  have shows := (shows_afterAll initial possible id).1 c found
  generalize shown : c.results = results at shows
  cases shows with
  | nothing =>
    simp only [Context.results, Context.Results.mk.injEq] at shown
    exact ⟨shown.1, shown.2.1⟩
  | last publication => exact absurd nothing publication.last.history_ne_nil

theorem LastPublication.underway (initial : s.Initial) {ran since : List Event} {carrier : TaskId}
    {reply : Reply} {held : Context}
    (publication : s.LastPublication id es (ran ++ later) carrier since reply held)
    (possible : s.Possible es) (nothing : (s.afterAll ran).history (begunBy id) later = []) :
    ∃ first start rest, s.Underway id ran first start rest carrier := by
  obtain ⟨first, start, during, underway, -⟩ := publication.answered
  rw [publication.last.split] at possible
  obtain ⟨rest, before⟩ :=
    underway.of_nothing_begun initial (possible_append.mp possible).1 nothing
  exact ⟨first, start, rest, before⟩

/-! ## What a workspace without a main file shows -/

/-- The last time that the main file of a context is set, and what comes after it. -/
structure LastNaming (s : State) (id : ContextId) (es before : List Event) (sets : Event)
    (later : List Event) : Prop where
  split : es = before ++ sets :: later
  names : renames id (s.afterAll before) sets = true
  kept : ((s.afterAll before).after sets).Always (fun s e => renames id s e = false) later

theorem exists_lastNaming (s : State) (id : ContextId) (es : List Event) :
    s.Always (fun s e => renames id s e = false) es ∨
      ∃ before sets later, s.LastNaming id es before sets later := by
  induction es generalizing s with
  | nil => exact .inl trivial
  | cons e es inductionHypothesis =>
    obtain quiet | ⟨before, sets, later, split, renamed, kept⟩ := inductionHypothesis (s.after e)
    · cases now : renames id s e with
      | false => exact .inl ⟨now, quiet⟩
      | true => exact .inr ⟨[], e, es, rfl, now, quiet⟩
    · exact .inr ⟨e :: before, sets, later, by rw [split]; rfl, renamed, kept⟩

section

variable {before : List Event} {sets : Event} (naming : s.LastNaming id es before sets later)
include naming

theorem LastNaming.nothing_begins (found : (s.afterAll es).registry.context? id = some c)
    (workspace : c.isWorkspace = true) (nameless : c.mainFile = "") :
    (s.afterAll before).history (begunBy id) (sets :: later) = [] := by
  rw [naming.split, afterAll_append, afterAll_cons] at found
  rw [history, history_begunBy_of_nameless naming.kept found workspace nameless,
    (publishedBy_of_renames naming.names).2, List.append_nil]

theorem LastNaming.history_publishedBy
    (silent : ((s.afterAll before).after sets).history (publishedBy id) later = []) :
    s.history (publishedBy id) es = s.history (publishedBy id) before := by
  rw [naming.split, history_append, history, silent, (publishedBy_of_renames naming.names).1,
    List.append_nil, List.append_nil]

/-- If something has been published since the main file was last set, the last publication came
after that. -/
theorem LastNaming.publication {ran since : List Event} {carrier : TaskId} {reply : Reply}
    {held : Context} (publication : s.LastPublication id es ran carrier since reply held)
    (loud : ((s.afterAll before).after sets).history (publishedBy id) later ≠ []) :
    ∃ more, ran = before ++ sets :: more := by
  have last := publication.last
  rw [naming.split] at last
  obtain ⟨-, more, -, -, rfl⟩ | ⟨nothing, -⟩ := last.cases (publishedBy_of_renames naming.names).1
  · exact ⟨more, rfl⟩
  · exact absurd nothing loud

theorem LastNaming.later_eq {more since : List Event} {carrier : TaskId} {reply : Reply}
    {held : Context}
    (publication : s.LastPublication id es (before ++ sets :: more) carrier since reply held) :
    later = more ++ .advance carrier :: since := by
  have whole := publication.last.split
  rw [naming.split, List.append_assoc, List.append_cancel_left_eq] at whole
  exact (List.cons.inj whole).2

theorem LastNaming.tables_of_published (initial : s.Initial) (possible : s.Possible es)
    {more since : List Event} {carrier : TaskId} {reply : Reply} {held : Context}
    (publication : s.LastPublication id es (before ++ sets :: more) carrier since reply held)
    (found : (s.afterAll es).registry.context? id = some c) :
    c.symbols = (held.collect reply.output).symbols ∧
      c.diagnostics = (held.collect reply.output).diagnostics := by
  obtain ⟨diagnostics, symbols⟩ := publication.tables initial possible found
  have kept := naming.kept
  rw [naming.later_eq publication, always_append, ← afterAll_cons, ← afterAll_append] at kept
  exact ⟨symbols (always_imp (fun _ _ => clears_of_not_renames) kept.2.2), diagnostics⟩

/-- What is published for a workspace without a main file was under way when the main file was
taken away. -/
theorem LastNaming.silent_or_underway (initial : s.Initial) (possible : s.Possible es)
    (found : (s.afterAll es).registry.context? id = some c) (workspace : c.isWorkspace = true)
    (nameless : c.mainFile = "") :
    ((s.afterAll before).after sets).history (publishedBy id) later = [] ∨
      ∃ first start during carrier more since reply held,
        s.Underway id before first start during carrier ∧
          s.LastPublication id es (before ++ sets :: more) carrier since reply held := by
  by_cases silent : ((s.afterAll before).after sets).history (publishedBy id) later = []
  · exact .inl silent
  · have some : s.history (publishedBy id) es ≠ [] := by
      intro none
      rw [naming.split, history_append, history, List.append_eq_nil_iff, List.append_eq_nil_iff]
        at none
      exact silent none.2.2
    obtain ⟨ran, carrier, since, reply, held, publication⟩ :=
      exists_lastPublication initial possible found some
    obtain ⟨more, rfl⟩ := naming.publication publication silent
    have nothing := naming.nothing_begins found workspace nameless
    rw [naming.later_eq publication, ← List.cons_append, history_append, List.append_eq_nil_iff]
      at nothing
    obtain ⟨first, start, during, underway⟩ := publication.underway initial possible nothing.1
    exact .inr ⟨first, start, during, carrier, more, since, reply, held, underway, publication⟩

/-- To take the main file away leaves no symbols and all diagnostics. -/
theorem LastNaming.tables_of_unpublished
    (loud : s.Always (fun s e => renamesQuietly id s e = false) es) {old : Context}
    (foundOld : (s.afterAll before).registry.context? id = some old)
    (found : (s.afterAll es).registry.context? id = some c) (workspace : c.isWorkspace = true)
    (nothing : ((s.afterAll before).after sets).history (publishedBy id) later = []) :
    c.symbols = {} ∧ c.diagnostics = old.diagnostics := by
  rw [naming.split, always_append, always_cons] at loud
  rw [naming.split, afterAll_append] at found
  have silent : (s.afterAll before).history (publishedBy id) (sets :: later) = [] := by
    rw [history, nothing, (publishedBy_of_renames naming.names).1, List.append_nil]
  obtain ⟨last, foundLast, diagnostics, symbols⟩ := tables_afterAll_of_unpublished foundOld silent
  cases foundLast.symm.trans found
  obtain ⟨same, foundSame, -, kind⟩ := context?_afterAll foundOld (sets :: later)
  cases foundSame.symm.trans found
  have cleared := clears_of_renames foundOld (kind.symm.trans workspace) naming.names loud.2.1
  exact ⟨by simpa [cleared] using symbols, diagnostics⟩

/-- A main file that was last set before there was a context has left no trace. -/
theorem LastNaming.tables_of_absent (initial : s.Initial) (possible : s.Possible es)
    (absent : (s.afterAll before).registry.context? id = none)
    (found : (s.afterAll es).registry.context? id = some c) (workspace : c.isWorkspace = true)
    (nameless : c.mainFile = "") : c.symbols = {} ∧ c.diagnostics = {} := by
  have possibleBefore := (possible_append.mp (naming.split ▸ possible)).1
  obtain silent | ⟨_, _, _, _, _, _, _, _, underway, -⟩ :=
    naming.silent_or_underway initial possible found workspace nameless
  · refine State.tables_of_unpublished initial possible found ?_
    rw [naming.history_publishedBy silent]
    exact (shows_afterAll initial possibleBefore id).2 absent
  · have running := underway.running initial possibleBefore
    have nobody := (initial.steady.afterAll initial.roster possibleBefore).owned id absent
    rw [nobody] at running
    cases running

end

theorem tables_of_never_named (initial : s.Initial) (possible : s.Possible es)
    (never : s.Always (fun s e => renames id s e = false) es)
    (found : (s.afterAll es).registry.context? id = some c) (workspace : c.isWorkspace = true)
    (nameless : c.mainFile = "") : c.symbols = {} ∧ c.diagnostics = {} := by
  refine tables_of_unpublished initial possible found ?_
  by_contra some
  obtain ⟨ran, carrier, since, reply, held, publication⟩ :=
    exists_lastPublication initial possible found some
  have nothing := history_begunBy_of_nameless never found workspace nameless
  rw [publication.last.split, history_append, List.append_eq_nil_iff] at nothing
  have fromStart : s.LastPublication id es ([] ++ ran) carrier since reply held := publication
  obtain ⟨first, start, rest, underway⟩ := fromStart.underway initial possible nothing.1
  exact absurd underway.split (by simp)

/-- The invocation of a context that was under way when `before` had happened has published since
`sets`, last of all, and it has found nothing. -/
def FoundNothing (s : State) (id : ContextId) (es before : List Event) (sets : Event) : Prop :=
  ∃ first start during carrier more since reply held,
    s.Underway id before first start during carrier ∧
      s.LastPublication id es (before ++ sets :: more) carrier since reply held ∧
      (held.collect reply.output).symbols = {} ∧ (held.collect reply.output).diagnostics = {}

/-- A workspace without a main file shows nothing exactly if it never had one, or if, when its main
file was last taken away, there were no diagnostics and nothing has been published since, or an
invocation was under way that has published since and has found nothing. -/
theorem shows_nothing_without_main_file_iff (initial : s.Initial) (possible : s.Possible es)
    (loud : s.Always (fun s e => renamesQuietly id s e = false) es)
    (found : (s.afterAll es).registry.context? id = some c) (workspace : c.isWorkspace = true)
    (nameless : c.mainFile = "") :
    c.symbols = {} ∧ c.diagnostics = {} ↔
      ∀ before sets later old, s.LastNaming id es before sets later →
        (s.afterAll before).registry.context? id = some old →
        (((s.afterAll before).after sets).history (publishedBy id) later = [] ∧
          old.diagnostics = {}) ∨ s.FoundNothing id es before sets := by
  constructor
  · rintro ⟨symbols, diagnostics⟩ before sets later old naming foundOld
    obtain silent | ⟨first, start, during, carrier, more, since, reply, held, underway,
        publication⟩ := naming.silent_or_underway initial possible found workspace nameless
    · obtain ⟨-, kept⟩ := naming.tables_of_unpublished loud foundOld found workspace silent
      exact .inl ⟨silent, kept.symm.trans diagnostics⟩
    · obtain ⟨sameSymbols, sameDiagnostics⟩ :=
        naming.tables_of_published initial possible publication found
      exact .inr ⟨first, start, during, carrier, more, since, reply, held, underway, publication,
        sameSymbols.symm.trans symbols, sameDiagnostics.symm.trans diagnostics⟩
  · intro condition
    obtain never | ⟨before, sets, later, naming⟩ := s.exists_lastNaming id es
    · exact tables_of_never_named initial possible never found workspace nameless
    · -- A main file can be set for a number that is not in store yet.
      cases foundOld : (s.afterAll before).registry.context? id with
      | none => exact naming.tables_of_absent initial possible foundOld found workspace nameless
      | some old =>
        obtain ⟨silent, bare⟩ | ⟨_, _, _, _, _, _, _, _, _, publication, symbols, diagnostics⟩ :=
          condition before sets later old naming foundOld
        · obtain ⟨cleared, kept⟩ :=
            naming.tables_of_unpublished loud foundOld found workspace silent
          exact ⟨cleared, kept.trans bare⟩
        · obtain ⟨sameSymbols, sameDiagnostics⟩ :=
            naming.tables_of_published initial possible publication found
          exact ⟨sameSymbols.trans symbols, sameDiagnostics.trans diagnostics⟩

/-- What the main file `a.pwn` declares is published, and then the main file is taken away. -/
def vacatingRun (report : String) : List Event :=
  [.instruct (.record ⟨"/w/a.pwn"⟩ (.ofTexts report "")), .assign 0 "a.pwn" true, .run 0,
    .advance 0, .advance 0, .advance 0, .assign 0 "" true, .run 0]

/-- Where there was no diagnostic, nothing is left. -/
theorem shows_nothing_without_main_file_vacatingRun :
    let report := "\x7b\"kind\":\"functions\",\"payload\":[\x7b\"name\":\"old\"\x7d]\x7d"
    let es := vacatingRun report
    soleWorkspace.Initial ∧ soleWorkspace.Possible es ∧
      soleWorkspace.Always (fun s e => renamesQuietly 0 s e = false) es ∧
      ∃ c old, (soleWorkspace.afterAll es).registry.context? 0 = some c ∧ c.isWorkspace = true ∧
        c.mainFile = "" ∧ (soleWorkspace.afterAll (es.take 6)).registry.context? 0 = some old ∧
        old.symbols.length = 1 ∧ (old.diagnostics = {} ∨
          soleWorkspace.FoundNothing 0 es (es.take 6) (.assign 0 "" true)) := by
  intro report es
  have possible : soleWorkspace.Possible es := by decide +kernel
  have loud : soleWorkspace.Always (fun s e => renamesQuietly 0 s e = false) es := by decide +kernel
  obtain ⟨c, found⟩ : ∃ c, (soleWorkspace.afterAll es).registry.context? 0 = some c :=
    Option.isSome_iff_exists.mp (by decide +kernel)
  have shown : ((soleWorkspace.afterAll es).registry.context? 0).map
      (fun c => (c.isWorkspace, c.mainFile, c.symbols, c.diagnostics)) =
        some (true, "", {}, {}) := by decide +kernel
  rw [found, Option.map_some, Option.some.injEq, Prod.mk.injEq, Prod.mk.injEq, Prod.mk.injEq]
    at shown
  obtain ⟨workspace, nameless, empty⟩ := shown
  obtain ⟨old, foundOld⟩ :
      ∃ old, (soleWorkspace.afterAll (es.take 6)).registry.context? 0 = some old :=
    Option.isSome_iff_exists.mp (by decide +kernel)
  have declared : ((soleWorkspace.afterAll (es.take 6)).registry.context? 0).map
      (·.symbols.length) = some 1 := by decide +kernel
  rw [foundOld, Option.map_some, Option.some.injEq] at declared
  have naming : soleWorkspace.LastNaming 0 es (es.take 6) (.assign 0 "" true) [.run 0] :=
    ⟨by decide +kernel, by decide +kernel, by decide +kernel⟩
  have condition := (shows_nothing_without_main_file_iff initial_soleWorkspace possible loud found
    workspace nameless).mp empty _ _ _ old naming foundOld
  exact ⟨initial_soleWorkspace, possible, loud, c, old, found, workspace, nameless, foundOld,
    declared, condition.imp_left (·.2)⟩

/-- The main file is taken away once while nothing runs, and once while it is compiled. -/
def vacatingTwiceRun : List Event :=
  vacatingRun ("\x7b\"kind\":\"functions\",\"payload\":[\x7b\"name\":\"old\"\x7d]\x7d\n" ++
      "\x7b\"kind\":\"diagnostic\",\"payload\":\x7b\"message\":\"odd\"\x7d\x7d") ++
    [.instruct .hold, .assign 0 "a.pwn" true, .run 0, .advance 1, .assign 0 "" true, .run 0,
      .release 0, .advance 1, .advance 1]

/-- The first time the diagnostics are left, the second time both tables are those of `a.pwn`. -/
theorem vacatingTwiceRun_shows_former_main_file :
    let first := soleWorkspace.afterAll (vacatingTwiceRun.take 8)
    let second := soleWorkspace.afterAll vacatingTwiceRun
    soleWorkspace.Initial ∧ soleWorkspace.Possible vacatingTwiceRun ∧
      soleWorkspace.Always (fun s e => renamesQuietly 0 s e = false) vacatingTwiceRun ∧
      first.isRunning 0 = false ∧ second.isRunning 0 = false ∧
      (first.registry.context? 0).map (fun c =>
        (c.isWorkspace, c.mainFile, c.symbols.length, c.diagnostics.length)) =
          some (true, "", 0, 1) ∧
      (second.registry.context? 0).map (fun c =>
        (c.isWorkspace, c.mainFile, c.symbols.length, c.diagnostics.length)) =
          some (true, "", 1, 1) := by
  refine ⟨initial_soleWorkspace, ?_, ?_, ?_, ?_, ?_, ?_⟩ <;> decide +kernel

end PawnQuery.Engine.State
