import PawnQuery.Proofs.Engine.Shown
import PawnQuery.Proofs.Report.Buffer

/-!
# What is published of the bytes that arrive

An invocation publishes the reading of one text: the first bytes that its report delivers, without
carriage returns, decoded at once.  How the bytes were cut into reads, how the stream ended, what
was written beside the report and how the compiler exited do not show.
-/

namespace PawnQuery

open PawnQuery.Compiler (Reply Recording)
open PawnQuery.Report (ByteStream withoutReturns)
open PawnQuery.Symbols (Findings)

/-- The text that is read of a report when this many bytes of it are kept. -/
def Report.ByteStream.textWithin (limit : Nat) (stream : ByteStream) : List Char :=
  Text.decodeLossy ((withoutReturns stream.delivered).take limit)

theorem Context.collect_eq (c : Context) (output : ByteStream) :
    c.collect output = .ofReport (output.textWithin c.settings.outputLimit) :=
  congrArg Findings.ofReport (Report.Buffer.text_fill c.settings.outputLimit output)

namespace Engine.State

/-- An invocation that the compiler has answered with `reply` after a run, and its context just
before and just after the section that ends it. -/
structure Completes (s : State) (id : ContextId) (es : List Event) (carrier : TaskId)
    (reply : Reply) (held released : Context) : Prop where
  initial : s.Initial
  possible : s.Possible es
  answered : s.Answered id es carrier reply
  before : (s.afterAll es).registry.context? id = some held
  after : ((s.afterAll es).after (.advance carrier)).registry.context? id = some released

variable {s : State} {id : ContextId} {es : List Event} {carrier : TaskId} {reply : Reply}

theorem Answered.completes (initial : s.Initial) (possible : s.Possible es)
    (answered : s.Answered id es carrier reply) :
    ∃ held, s.Completes id es carrier reply held
      (held.apply (.finish (some reply) (s.afterAll es).now)) := by
  have activity := (collects_iff_answered initial possible).mpr answered
  have exists_context := context?_ne_none_of_carries
    (initial.steady.afterAll initial.roster possible) (initial.roster.afterAll es) activity rfl
  obtain ⟨held, found⟩ := Option.ne_none_iff_exists'.mp exists_context
  have changed := context?_after found (.advance carrier)
  rw [contextChange?_of_touches (.collect activity), Option.elim_some] at changed
  exact ⟨held, initial, possible, answered, found, changed⟩

theorem Completes.tables {held released : Context}
    (completes : s.Completes id es carrier reply held released) :
    let found := Findings.ofReport (reply.output.textWithin held.settings.outputLimit)
    released.symbols = found.symbols ∧ released.diagnostics = found.diagnostics := by
  obtain ⟨other, same⟩ := completes.answered.completes completes.initial completes.possible
  have foundBefore := same.before
  rw [completes.before] at foundBefore
  cases foundBefore
  have foundAfter := same.after
  rw [completes.after] at foundAfter
  cases foundAfter
  rw [← held.collect_eq]
  exact held.tables_apply_finish reply _

/-- An invocation that the compiler has answered ends by publishing the reading of the first bytes
that its report delivers, up to the limit, carriage returns left out.  So another invocation with
that limit whose report delivers the same bytes publishes the same tables. -/
theorem publishes_first_delivered_bytes (initial : s.Initial) (possible : s.Possible es)
    (answered : s.Answered id es carrier reply) :
    ∃ held released, s.Completes id es carrier reply held released ∧
      (let found := Findings.ofReport
        (Text.decodeLossy ((withoutReturns reply.output.delivered).take held.settings.outputLimit))
       released.symbols = found.symbols ∧ released.diagnostics = found.diagnostics) ∧
      ∀ (t : State) (other : ContextId) (fs : List Event) (task : TaskId) (answer : Reply)
        (old new : Context), t.Completes other fs task answer old new →
        old.settings.outputLimit = held.settings.outputLimit →
        answer.output.delivered = reply.output.delivered →
        new.symbols = released.symbols ∧ new.diagnostics = released.diagnostics := by
  obtain ⟨held, completes⟩ := answered.completes initial possible
  refine ⟨held, _, completes, completes.tables, ?_⟩
  intro t other fs task answer old new otherCompletes limit delivered
  have same : answer.output.textWithin old.settings.outputLimit =
      reply.output.textWithin held.settings.outputLimit := by
    unfold ByteStream.textWithin
    rw [limit, delivered]
  have tables := otherCompletes.tables
  rw [same] at tables
  exact ⟨tables.1.trans completes.tables.1.symm, tables.2.trans completes.tables.2.symm⟩

/-- A report is recorded for `a.pwn`, whose invocation is then handed to the compiler. -/
def recordedRun (recording : Recording) : List Event :=
  [.instruct (.recordStream "/w/a.pwn" recording), .assign 0 "a.pwn" false, .run 0, .advance 0]

/-- One report is cut within a letter and within a line end and then fails; the other one delivers
the same bytes at once, and what comes after an empty read is lost. -/
theorem publishes_first_delivered_bytes_recordedRun :
    let bytes := ("\x7b\"kind\":\"tags\",\r\"payload\":[\x7b\"name\":\"é\"\x7d]\x7d\r\n" ++
      "half a line").toUTF8.toList
    let torn : Recording :=
      ⟨⟨[bytes.take 37, (bytes.drop 37).take 6, bytes.drop 43], .failed "reset"⟩,
        ⟨[[0xFF]], .failed "late"⟩, none⟩
    let whole : Recording := ⟨⟨[bytes, [], [0x7B]], .closed⟩, {}, some 1⟩
    ∃ held released old new,
      soleWorkspace.Completes 0 (recordedRun torn) 0
          ⟨torn.output, torn.diagnostics, none, none⟩ held released ∧
        soleWorkspace.Completes 0 (recordedRun whole) 0
          ⟨whole.output, whole.diagnostics, none, some 1⟩ old new ∧
        new.symbols = released.symbols ∧ new.diagnostics = released.diagnostics ∧
        new.symbols.tags.map (·.name) = ["é"] := by
  intro bytes torn whole
  have initial := initial_soleWorkspace
  have possible : soleWorkspace.Possible (recordedRun torn) := by decide +kernel
  have possibleWhole : soleWorkspace.Possible (recordedRun whole) := by decide +kernel
  have answered : soleWorkspace.Answered 0 (recordedRun torn) 0
      ⟨torn.output, torn.diagnostics, none, none⟩ :=
    (collects_iff_answered initial possible).mp (by decide +kernel)
  have answeredWhole : soleWorkspace.Answered 0 (recordedRun whole) 0
      ⟨whole.output, whole.diagnostics, none, some 1⟩ :=
    (collects_iff_answered initial possibleWhole).mp (by decide +kernel)
  obtain ⟨held, released, completes, -, same⟩ :=
    publishes_first_delivered_bytes initial possible answered
  obtain ⟨old, otherCompletes⟩ := answeredWhole.completes initial possibleWhole
  have limits : ((soleWorkspace.afterAll (recordedRun whole)).registry.context? 0).map
        (·.settings.outputLimit) =
      ((soleWorkspace.afterAll (recordedRun torn)).registry.context? 0).map
        (·.settings.outputLimit) := by decide +kernel
  rw [otherCompletes.before, completes.before, Option.map_some, Option.map_some,
    Option.some.injEq] at limits
  obtain ⟨symbols, diagnostics⟩ := same _ _ _ _ _ _ _ otherCompletes limits (by decide +kernel)
  have names : (((soleWorkspace.afterAll (recordedRun whole)).after (.advance 0)).registry.context?
      0).map (fun c => c.symbols.tags.map (·.name)) = some ["é"] := by decide +kernel
  rw [otherCompletes.after, Option.map_some, Option.some.injEq] at names
  exact ⟨held, released, old, _, completes, otherCompletes, symbols, diagnostics, names⟩

end Engine.State

end PawnQuery
