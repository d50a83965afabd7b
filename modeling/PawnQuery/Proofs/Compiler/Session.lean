import PawnQuery.Compiler.Replay
import PawnQuery.Proofs.Latest
import PawnQuery.Proofs.Report.Buffer

/-!
# Sessions with a replaying compiler

A replaying compiler has one state, whoever holds it.  What an invocation comes to is settled when
it begins, by what was done before; only its end may wait, for the gate that was made last before
it.  Other gates, and whatever is done later, have no part in it.
-/

namespace PawnQuery.Compiler

open PawnQuery.Report (ByteStream)

/-- What can be done with a replaying compiler and with the gates it made, which are numbered in
the order they were made. -/
inductive Operation where
  | record (target : Path) (output diagnostics : String)
  | setFallback (output : String)
  | refuse (reason : String)
  | accept
  | hold
  | openGate (gate : GateId)
  | dropGate (gate : GateId)
  | spawn (invocation : Invocation)
deriving DecidableEq

namespace Operation

/-- What an operation says about later invocations: why they are refused, or that they are not. -/
def verdict? : Operation → Option (Option String)
  | .refuse reason => some (some reason)
  | .accept => some none
  | _ => none

def texts? (target : Path) : Operation → Option (String × String)
  | .record other output diagnostics =>
    if other.Same target then some (output, diagnostics) else none
  | _ => none

def fallback? : Operation → Option String
  | .setFallback output => some output
  | _ => none

def invocation? : Operation → Option Invocation
  | .spawn i => some i
  | _ => none

/-- The gate that is opened or dropped. -/
def released? : Operation → Option GateId
  | .openGate gate => some gate
  | .dropGate gate => some gate
  | _ => none

theorem released?_eq_some_iff {op : Operation} {gate : GateId} :
    op.released? = some gate ↔ op = .openGate gate ∨ op = .dropGate gate := by
  cases op <;> simp [released?]

def recording? : Operation → Option (Path × Recording)
  | .record target output diagnostics => some (target, .ofTexts output diagnostics)
  | _ => none

end Operation

def refusalAfter (operations : List Operation) : Option String :=
  (lastGiven? Operation.verdict? operations).join

/-- What an invocation of a target says after these operations, as output and as diagnostics: what
was last recorded for it, else the last fallback, else nothing. -/
def textsAfter (operations : List Operation) (target : Path) : String × String :=
  ((lastGiven? (Operation.texts? target) operations).or
    ((lastGiven? Operation.fallback? operations).map fun output => (output, ""))).getD ("", "")

/-- A stream says a text, as UTF-8, and then it ends. -/
structure Delivers (stream : ByteStream) (text : String) : Prop where
  bytes : stream.delivered = text.toUTF8.toList
  ended : stream.ending = .closed

/-- The gate that was made last by these operations, and what came since. -/
structure HeldBy (operations : List Operation) (gate : GateId) (since : List Operation) :
    Prop where
  made : ∃ earlier, operations = earlier ++ .hold :: since ∧ gate = earlier.count .hold
  last : .hold ∉ since

namespace HeldBy

variable {operations since : List Operation} {gate : GateId}

theorem succ_gate (held : HeldBy operations gate since) : gate + 1 = operations.count .hold := by
  obtain ⟨⟨earlier, rfl, rfl⟩, last⟩ := held
  rw [List.count_append, List.count_cons_self, List.count_eq_zero_of_not_mem last]

theorem since_subset (held : HeldBy operations gate since) : since ⊆ operations := by
  obtain ⟨⟨earlier, rfl, -⟩, -⟩ := held
  intro op listed
  exact List.mem_append_right earlier (List.mem_cons_of_mem _ listed)

end HeldBy

/-- A replaying compiler with what its invocations came to so far, in order. -/
structure Session where
  compiler : Replay := {}
  outcomes : List (Except SpawnFault Reply) := []

namespace Session

/-- A gate that was not made yet cannot be released. -/
def release (s : Session) (gate : GateId) : Session :=
  if gate < s.compiler.gateCount then { s with compiler := s.compiler.release gate } else s

def perform (s : Session) : Operation → Session
  | .record target output diagnostics =>
    { s with compiler := s.compiler.record target (.ofTexts output diagnostics) }
  | .setFallback output => { s with compiler := s.compiler.setFallback output }
  | .refuse reason => { s with compiler := s.compiler.refuse reason }
  | .accept => { s with compiler := s.compiler.accept }
  | .hold => { s with compiler := s.compiler.hold.1 }
  | .openGate gate => s.release gate
  | .dropGate gate => s.release gate
  | .spawn i => ⟨(s.compiler.spawn i).1, s.outcomes ++ [(s.compiler.spawn i).2]⟩

def performAll (s : Session) (operations : List Operation) : Session :=
  operations.foldl perform s

def ofOperations (operations : List Operation) : Session := performAll {} operations

def exit? (s : Session) (reply : Reply) : Option (Option Int) :=
  if s.compiler.isOpen reply.gate then some reply.exitCode else none

theorem performAll_cons (s : Session) (op : Operation) (operations : List Operation) :
    s.performAll (op :: operations) = (s.perform op).performAll operations := rfl

theorem ofOperations_append (before after : List Operation) :
    ofOperations (before ++ after) = (ofOperations before).performAll after :=
  List.foldl_append

/-! ## One operation -/

section Step

variable (s : Session) (op : Operation)

theorem compiler_perform :
    (s.perform op).compiler =
      { s.compiler with
        recordings := op.recording?.toList ++ s.compiler.recordings
        fallback := (op.fallback?.map fun output => .ofTexts output "").or s.compiler.fallback
        refusal := op.verdict?.getD s.compiler.refusal
        gate := if op = .hold then some s.compiler.gateCount else s.compiler.gate
        gateCount := s.compiler.gateCount + if op = .hold then 1 else 0
        released := (op.released?.filter (· < s.compiler.gateCount)).toList ++ s.compiler.released
        history := op.invocation?.toList ++ s.compiler.history } := by
  cases op with
  | spawn i =>
    rw [perform, Replay.spawn]
    cases s.compiler.refusal <;> rfl
  | openGate gate | dropGate gate =>
    by_cases made : gate < s.compiler.gateCount
    · simp [perform, release, made, Replay.release, Option.filter, Operation.recording?,
        Operation.fallback?, Operation.verdict?, Operation.released?, Operation.invocation?]
    · simp [perform, release, made, Option.filter, Operation.recording?, Operation.fallback?,
        Operation.verdict?, Operation.released?, Operation.invocation?]
  | _ => rfl

theorem outcomes_perform :
    (s.perform op).outcomes =
      s.outcomes ++ (op.invocation?.map fun i => (s.compiler.spawn i).2).toList := by
  cases op with
  | spawn i => rfl
  | openGate gate | dropGate gate =>
    rw [perform, release]
    split <;> simp [Operation.invocation?]
  | _ => exact (List.append_nil _).symm

theorem recorded_perform (target : Path) :
    (((s.perform op).compiler.recordings.find? fun r => r.1.same target).map Prod.snd) =
      ((op.texts? target).map fun t => Recording.ofTexts t.1 t.2).or
        ((s.compiler.recordings.find? fun r => r.1.same target).map Prod.snd) := by
  rw [compiler_perform]
  cases op with
  | record other output diagnostics =>
    by_cases same : other.Same target
    · simp [Operation.recording?, Operation.texts?, same]
    · simp [Operation.recording?, Operation.texts?, same]
  | _ => rfl

theorem mem_released_perform (gate : GateId) :
    gate ∈ (s.perform op).compiler.released ↔
      (op.released? = some gate ∧ gate < s.compiler.gateCount) ∨
        gate ∈ s.compiler.released := by
  rw [compiler_perform]
  simp [Option.filter_eq_some_iff]

theorem gateCount_perform :
    (s.perform op).compiler.gateCount =
      s.compiler.gateCount + if op = .hold then 1 else 0 := by
  rw [compiler_perform]

end Step

/-! ## Operations one after the other -/

section Run

variable (s : Session) (operations : List Operation)

theorem refusal_ofOperations :
    (ofOperations operations).compiler.refusal = refusalAfter operations := by
  refine (view_foldl_apply (fun s : Session => s.compiler.refusal) Operation.verdict?
    (fun s op => by rw [compiler_perform]) operations {}).trans ?_
  rw [refusalAfter]
  cases lastGiven? Operation.verdict? operations <;> rfl

theorem fallback_ofOperations :
    (ofOperations operations).compiler.fallback =
      (lastGiven? Operation.fallback? operations).map fun output => .ofTexts output "" := by
  rw [← lastGiven?_map]
  refine (view?_foldl_apply (fun s : Session => s.compiler.fallback) _
    (fun s op => by rw [compiler_perform]) operations {}).trans ?_
  exact Option.or_none

theorem recorded_ofOperations (target : Path) :
    ((ofOperations operations).compiler.recordings.find? fun r => r.1.same target).map Prod.snd =
      (lastGiven? (Operation.texts? target) operations).map fun t => .ofTexts t.1 t.2 := by
  rw [← lastGiven?_map]
  refine (view?_foldl_apply
    (fun s : Session => (s.compiler.recordings.find? fun r => r.1.same target).map Prod.snd) _
    (fun s op => s.recorded_perform op target) operations {}).trans ?_
  exact Option.or_none

theorem streams_performAll : (s.performAll operations).compiler.streams = s.compiler.streams := by
  induction operations generalizing s with
  | nil => rfl
  | cons op operations inductionHypothesis =>
    rw [performAll_cons, inductionHypothesis, compiler_perform]

theorem gateCount_performAll :
    (s.performAll operations).compiler.gateCount =
      s.compiler.gateCount + operations.count .hold := by
  induction operations generalizing s with
  | nil => rfl
  | cons op operations inductionHypothesis =>
    rw [performAll_cons, inductionHypothesis, gateCount_perform, List.count_cons]
    simp only [beq_iff_eq]
    omega

theorem gate_performAll (last : .hold ∉ operations) :
    (s.performAll operations).compiler.gate = s.compiler.gate := by
  induction operations generalizing s with
  | nil => rfl
  | cons op operations inductionHypothesis =>
    have other : op ≠ .hold := fun same => last (same ▸ List.mem_cons_self)
    have others : .hold ∉ operations := fun listed => last (List.mem_cons_of_mem op listed)
    rw [performAll_cons, inductionHypothesis _ others, compiler_perform]
    exact if_neg other

theorem history_performAll :
    (s.performAll operations).compiler.history =
      (operations.filterMap Operation.invocation?).reverse ++ s.compiler.history := by
  induction operations generalizing s with
  | nil => rfl
  | cons op operations inductionHypothesis =>
    rw [performAll_cons, inductionHypothesis, compiler_perform]
    cases spawned : op.invocation? with
    | none => simp [spawned]
    | some i => simp [spawned]

theorem invocations_ofOperations :
    (ofOperations operations).compiler.invocations =
      operations.filterMap Operation.invocation? := by
  rw [Replay.invocations, ofOperations, history_performAll]
  simp

/-- There is an outcome for each invocation, and it stays. -/
theorem outcomes_performAll :
    ∃ more, (s.performAll operations).outcomes = s.outcomes ++ more ∧
      more.length = (operations.filterMap Operation.invocation?).length := by
  induction operations generalizing s with
  | nil => exact ⟨[], (List.append_nil _).symm, rfl⟩
  | cons op operations inductionHypothesis =>
    obtain ⟨more, adds, each⟩ := inductionHypothesis (s.perform op)
    rw [outcomes_perform, List.append_assoc] at adds
    refine ⟨_, adds, ?_⟩
    cases spawned : op.invocation? with
    | none => simp [spawned, each]
    | some i => simp [spawned, each]

theorem length_outcomes_ofOperations :
    (ofOperations operations).outcomes.length =
      (operations.filterMap Operation.invocation?).length := by
  obtain ⟨all, adds, each⟩ := outcomes_performAll {} operations
  rw [← each]
  exact congrArg List.length adds

/-- The outcome of an invocation is settled when it begins. -/
theorem outcomes_ofOperations_spawn (before after : List Operation) (i : Invocation) :
    (ofOperations (before ++ .spawn i :: after)).outcomes[
        (before.filterMap Operation.invocation?).length]? =
      some ((ofOperations before).compiler.spawn i).2 := by
  obtain ⟨more, adds, -⟩ := outcomes_performAll ((ofOperations before).perform (.spawn i)) after
  rw [ofOperations_append, performAll_cons, adds, ← length_outcomes_ofOperations, perform,
    List.append_assoc, List.getElem?_append_right (Nat.le_refl _), Nat.sub_self]
  rfl

end Run

/-! ## Gates -/

section Gates

variable {s : Session}

/-- Only gates that were made are released. -/
def ReleasesMade (s : Session) : Prop :=
  ∀ gate ∈ s.compiler.released, gate < s.compiler.gateCount

theorem releasesMade_new : ReleasesMade {} :=
  fun _ released => absurd released List.not_mem_nil

theorem ReleasesMade.perform (holds : s.ReleasesMade) (op : Operation) :
    (s.perform op).ReleasesMade := by
  intro gate released
  rw [gateCount_perform]
  obtain ⟨-, made⟩ | before := (s.mem_released_perform op gate).mp released
  · exact Nat.lt_add_right _ made
  · exact Nat.lt_add_right _ (holds gate before)

theorem ReleasesMade.performAll (holds : s.ReleasesMade) (operations : List Operation) :
    (s.performAll operations).ReleasesMade := by
  induction operations generalizing s with
  | nil => exact holds
  | cons op operations inductionHypothesis => exact inductionHypothesis (holds.perform op)

/-- A gate that was made is released by opening it and by dropping it, and by nothing else. -/
theorem mem_released_performAll {gate : GateId} (made : gate < s.compiler.gateCount)
    (operations : List Operation) :
    gate ∈ (s.performAll operations).compiler.released ↔
      gate ∈ s.compiler.released ∨ .openGate gate ∈ operations ∨ .dropGate gate ∈ operations := by
  induction operations generalizing s with
  | nil => simp [performAll]
  | cons op operations inductionHypothesis =>
    have still : gate < (s.perform op).compiler.gateCount := by
      rw [gateCount_perform]
      exact Nat.lt_add_right _ made
    rw [performAll_cons, inductionHypothesis still, mem_released_perform,
      Operation.released?_eq_some_iff]
    simp only [List.mem_cons, eq_comm (b := op)]
    tauto

end Gates

/-! ## What an invocation comes to -/

theorem delivers_ofText (text : String) : Delivers (.ofText text) text where
  bytes := ByteStream.delivered_ofText text
  ended := rfl

theorem delivers_nothing : Delivers {} "" where
  bytes := by
    have nothing : ("" : String).toUTF8.toList = [] := by simp
    rw [nothing]
    rfl
  ended := rfl

theorem recordingFor_ofOperations (operations : List Operation) (target : Path) :
    let recording := (ofOperations operations).compiler.recordingFor target
    Delivers recording.output (textsAfter operations target).1 ∧
      Delivers recording.diagnostics (textsAfter operations target).2 ∧
      recording.exitCode = some 0 := by
  intro recording
  have chosen : recording =
      (((lastGiven? (Operation.texts? target) operations).map
          fun t => Recording.ofTexts t.1 t.2).or
        ((lastGiven? Operation.fallback? operations).map
          fun output => .ofTexts output "")).getD {} := by
    rw [← recorded_ofOperations, ← fallback_ofOperations]
    have streams : (ofOperations operations).compiler.streams = [] :=
      streams_performAll {} operations
    simp only [recording, Replay.recordingFor, streams, List.find?_nil]
    cases (ofOperations operations).compiler.recordings.find? fun r => r.1.same target <;> rfl
  rw [chosen, textsAfter]
  cases lastGiven? (Operation.texts? target) operations with
  | some t => exact ⟨delivers_ofText t.1, delivers_ofText t.2, rfl⟩
  | none =>
    cases lastGiven? Operation.fallback? operations with
    | some output => exact ⟨delivers_ofText output, delivers_ofText "", rfl⟩
    | none => exact ⟨delivers_nothing, delivers_nothing, rfl⟩

theorem spawn_ofOperations (operations : List Operation) (i : Invocation) :
    let outcome := ((ofOperations operations).compiler.spawn i).2
    (∀ reason, outcome = .error (.unavailable reason) ↔
        refusalAfter operations = some reason) ∧
      (refusalAfter operations = none →
        ∃ reply, outcome = .ok reply ∧
          Delivers reply.output (textsAfter operations i.target).1 ∧
          Delivers reply.diagnostics (textsAfter operations i.target).2 ∧
          reply.exitCode = some 0 ∧ reply.gate = (ofOperations operations).compiler.gate) := by
  intro outcome
  have refusal := refusal_ofOperations operations
  have recording := recordingFor_ofOperations operations i.target
  simp only [outcome, Replay.spawn, refusal]
  cases refusalAfter operations with
  | some reason => simp
  | none =>
    refine ⟨by simp, fun _ => ⟨_, rfl, ?_⟩⟩
    obtain ⟨output, diagnostics, exit⟩ := recording
    exact ⟨output, diagnostics, exit, rfl⟩

/-- A hold makes a gate that nothing released yet, and it is in force until the next hold. -/
theorem gate_of_hold (earlier : List Operation) {since : List Operation} (last : .hold ∉ since) :
    let made := earlier.count .hold
    let held := (ofOperations earlier).perform .hold
    (ofOperations (earlier ++ .hold :: since)).compiler.gate = some made ∧
      made < held.compiler.gateCount ∧ made ∉ held.compiler.released := by
  intro made held
  have count : (ofOperations earlier).compiler.gateCount = made := by
    rw [ofOperations, gateCount_performAll]
    exact Nat.zero_add _
  refine ⟨?_, ?_, fun released => ?_⟩
  · rw [ofOperations_append, performAll_cons, gate_performAll _ _ last, ← count]
    rfl
  · rw [gateCount_perform, count, if_pos rfl]
    exact Nat.lt_succ_self made
  · have earlierMade := releasesMade_new.performAll earlier made released
    exact absurd earlierMade (count ▸ Nat.lt_irrefl made)

/-- What holds back an invocation is the gate made last before it; it is free once that gate was
opened or dropped. -/
theorem isOpen_ofOperations (before later : List Operation) :
    let now := (ofOperations (before ++ later)).compiler
    let gate := (ofOperations before).compiler.gate
    (.hold ∉ before ∧ now.isOpen gate = true) ∨
      ∃ made since, HeldBy before made since ∧
        (now.isOpen gate = true ↔
          .openGate made ∈ since ++ later ∨ .dropGate made ∈ since ++ later) := by
  intro now gate
  obtain ⟨_, since, ⟨earlier, op, rfl, holds⟩, last⟩ | never :=
    lastGiven_or_never (fun op : Operation => if op = .hold then some () else none) before
  · have isHold : op = .hold := by simpa using holds
    have unheld : .hold ∉ since := fun listed => by simpa using last _ listed
    subst isHold
    obtain ⟨inForce, made, fresh⟩ := gate_of_hold earlier unheld
    refine .inr ⟨_, since, ⟨⟨earlier, rfl, rfl⟩, unheld⟩, ?_⟩
    have released := mem_released_performAll made (since ++ later)
    simp only [fresh, false_or] at released
    simp only [now, gate, inForce, Replay.isOpen, Option.all_some, List.contains_iff_mem]
    rw [← released, List.append_assoc, List.cons_append, ofOperations_append, performAll_cons]
  · have unheld : .hold ∉ before := fun listed => by simpa using never _ listed
    refine .inl ⟨unheld, ?_⟩
    have none : gate = none := gate_performAll {} before unheld
    rw [none]
    rfl

/-- Whatever is done with a replaying compiler and its gates: an invocation is refused if and only
if invocations were refused last, with the last reason, and else it says what was recorded last for
its target, or the last fallback, or nothing.  Nothing done later changes that.  Its exit code is 0,
known as soon as the gate made last before it was opened or dropped, or at once if there was no
gate.  Every invocation is remembered, refused ones too. -/
theorem session_follows_history (operations : List Operation) :
    let now := ofOperations operations
    now.compiler.invocations = operations.filterMap Operation.invocation? ∧
      now.outcomes.length = now.compiler.invocations.length ∧
      now.compiler.hold.2 = operations.count .hold ∧
      ∀ before i after, operations = before ++ .spawn i :: after →
        ∃ outcome, now.outcomes[(before.filterMap Operation.invocation?).length]? = some outcome ∧
          (∀ reason, outcome = .error (.unavailable reason) ↔
            refusalAfter before = some reason) ∧
          (refusalAfter before = none →
            ∃ reply, outcome = .ok reply ∧
              Delivers reply.output (textsAfter before i.target).1 ∧
              Delivers reply.diagnostics (textsAfter before i.target).2 ∧
              ((.hold ∉ before ∧ now.exit? reply = some (some 0)) ∨
                ∃ gate since, HeldBy before gate since ∧
                  now.exit? reply =
                    if .openGate gate ∈ since ++ .spawn i :: after ∨
                        .dropGate gate ∈ since ++ .spawn i :: after then some (some 0)
                    else none)) := by
  intro now
  refine ⟨invocations_ofOperations operations, ?_, ?_, ?_⟩
  · rw [invocations_ofOperations, length_outcomes_ofOperations]
  · exact (gateCount_performAll {} operations).trans (Nat.zero_add _)
  rintro before i after rfl
  obtain ⟨refused, replied⟩ := spawn_ofOperations before i
  refine ⟨_, outcomes_ofOperations_spawn before after i, refused, fun accepted => ?_⟩
  obtain ⟨reply, outcome, output, diagnostics, exit, gate⟩ := replied accepted
  refine ⟨reply, outcome, output, diagnostics, ?_⟩
  obtain ⟨unheld, isOpen⟩ | ⟨made, since, held, isOpen⟩ :=
    isOpen_ofOperations before (.spawn i :: after)
  · refine .inl ⟨unheld, ?_⟩
    rw [exit?, gate, exit]
    exact if_pos isOpen
  · refine .inr ⟨made, since, held, ?_⟩
    rw [exit?, gate, exit]
    exact if_congr isOpen rfl rfl

/-- A script is recorded, held back behind a first gate, recorded anew under another spelling, and
held back behind a second one, which is opened.  The first invocation says what was recorded first
and does not end; the second is refused; the third says what was recorded last and ends. -/
theorem session_follows_history_two_gates :
    let script := Invocation.ofTarget ⟨"/w/a.pwn"⟩ []
    let first : List Operation := [.record ⟨"/w/a.pwn"⟩ "old" "", .hold]
    let second : List Operation := first ++ [.spawn script, .record ⟨"/w/./a.pwn"⟩ "new" "note",
      .hold, .refuse "busy"]
    let third : List Operation := second ++ [.spawn script, .accept]
    let operations := third ++ [.spawn script, .openGate 1]
    let now := ofOperations operations
    now.compiler.invocations = [script, script, script] ∧
      (∃ reply, now.outcomes[0]? = some (.ok reply) ∧ Delivers reply.output "old" ∧
        Delivers reply.diagnostics "" ∧ now.exit? reply = none) ∧
      now.outcomes[1]? = some (.error (.unavailable "busy")) ∧
      (∃ reply, now.outcomes[2]? = some (.ok reply) ∧ Delivers reply.output "new" ∧
        Delivers reply.diagnostics "note" ∧ now.exit? reply = some (some 0)) := by
  intro script first second third operations now
  obtain ⟨invocations, -, -, spawned⟩ := session_follows_history operations
  refine ⟨invocations, ?_, ?_, ?_⟩
  · let later := operations.drop 3
    obtain ⟨_, outcome, -, replied⟩ := spawned first script later rfl
    have texts : textsAfter first script.target = ("old", "") := by decide +kernel
    rw [texts] at replied
    obtain ⟨reply, rfl, output, diagnostics, ⟨unheld, -⟩ | ⟨gate, since, held, exit⟩⟩ :=
      replied (by decide +kernel)
    · exact absurd (by decide +kernel) unheld
    · have gateZero : gate = 0 := Nat.succ.inj (held.succ_gate.trans (by decide +kernel))
      have early : first ⊆ operations := by decide +kernel
      have inside : since ++ .spawn script :: later ⊆ operations :=
        List.append_subset_of_subset_of_subset
          (fun op listed => early (held.since_subset listed)) (by decide +kernel)
      have closed : .openGate 0 ∉ operations ∧ .dropGate 0 ∉ operations := by decide +kernel
      subst gateZero
      refine ⟨reply, outcome, output, diagnostics, exit.trans (if_neg ?_)⟩
      exact not_or.mpr ⟨fun opened => closed.1 (inside opened),
        fun dropped => closed.2 (inside dropped)⟩
  · obtain ⟨_, outcome, refused, -⟩ := spawned second script _ rfl
    exact outcome.trans (congrArg some ((refused "busy").mpr (by decide +kernel)))
  · obtain ⟨_, outcome, -, replied⟩ := spawned third script _ rfl
    have texts : textsAfter third script.target = ("new", "note") := by decide +kernel
    rw [texts] at replied
    obtain ⟨reply, rfl, output, diagnostics, ⟨unheld, -⟩ | ⟨gate, since, held, exit⟩⟩ :=
      replied (by decide +kernel)
    · exact absurd (by decide +kernel) unheld
    · have gateOne : gate = 1 := Nat.succ.inj (held.succ_gate.trans (by decide +kernel))
      refine ⟨reply, outcome, output, diagnostics, exit.trans (if_pos (.inl ?_))⟩
      simp [gateOne]

end Session

end PawnQuery.Compiler
