import PawnQuery.Compiler.Fault
import PawnQuery.Compiler.Invocation
import PawnQuery.Report.Buffer

/-!
# Replaying recorded reports

A replaying compiler answers each invocation with what was recorded for its target, else with a
fallback, else with nothing.  It can refuse to start, and it can hold an invocation back behind a
gate: what the invocation says is there at once, but it does not end before the gate is released.
Every invocation is remembered, refused ones too.
-/

namespace PawnQuery.Compiler

open PawnQuery.Report (ByteStream)

abbrev GateId := Nat

/-- The reply to a started invocation: what it writes, and how it ends. -/
structure Reply where
  output : ByteStream
  diagnostics : ByteStream
  /-- The gate that holds back its end. -/
  gate : Option GateId := none
  exitCode : Option Int := some 0
deriving DecidableEq, Repr, Inhabited

structure Recording where
  output : ByteStream := {}
  diagnostics : ByteStream := {}
  exitCode : Option Int := some 0
deriving DecidableEq, Repr, Inhabited

def Recording.ofTexts (output diagnostics : String) : Recording :=
  { output := .ofText output, diagnostics := .ofText diagnostics }

structure Replay where
  /-- Recordings by target, the latest first; targets are compared as paths. -/
  recordings : List (Path × Recording) := []
  /-- Recordings of streams by the exact spelling of a target; they come before all others. -/
  streams : List (String × Recording) := []
  fallback : Option Recording := none
  /-- Why invocations are refused at present. -/
  refusal : Option String := none
  /-- The gate that holds back invocations started from now on. -/
  gate : Option GateId := none
  released : List GateId := []
  gateCount : Nat := 0
  /-- Every invocation so far, the latest first. -/
  history : List Invocation := []
deriving DecidableEq, Repr, Inhabited

namespace Replay

def record (r : Replay) (target : Path) (recording : Recording) : Replay :=
  { r with recordings := (target, recording) :: r.recordings }

def recordStream (r : Replay) (target : String) (recording : Recording) : Replay :=
  { r with streams := (target, recording) :: r.streams }

def setFallback (r : Replay) (output : String) : Replay :=
  { r with fallback := some (.ofTexts output "") }

def refuse (r : Replay) (reason : String) : Replay := { r with refusal := some reason }

def accept (r : Replay) : Replay := { r with refusal := none }

def hold (r : Replay) : Replay × GateId :=
  ({ r with gate := some r.gateCount, gateCount := r.gateCount + 1 }, r.gateCount)

/-- Releases what a gate holds back, now and later. -/
def release (r : Replay) (gate : GateId) : Replay :=
  { r with released := gate :: r.released }

def isOpen (r : Replay) (gate : Option GateId) : Bool :=
  gate.all fun g => r.released.contains g

def recordingFor (r : Replay) (target : Path) : Recording :=
  match r.streams.find? fun s => s.1 == target.text with
  | some s => s.2
  | none =>
    match r.recordings.find? fun s => s.1.same target with
    | some s => s.2
    | none => r.fallback.getD {}

def invocations (r : Replay) : List Invocation := r.history.reverse

def spawn (r : Replay) (i : Invocation) : Replay × Except SpawnFault Reply :=
  let after := { r with history := i :: r.history }
  match r.refusal with
  | some reason => (after, .error (.unavailable reason))
  | none =>
    let recording := r.recordingFor i.target
    (after, .ok ⟨recording.output, recording.diagnostics, r.gate, recording.exitCode⟩)

@[simp] theorem invocations_spawn (r : Replay) (i : Invocation) :
    (r.spawn i).1.invocations = r.invocations ++ [i] := by
  unfold spawn
  cases r.refusal <;> simp [invocations]

end Replay

end PawnQuery.Compiler
