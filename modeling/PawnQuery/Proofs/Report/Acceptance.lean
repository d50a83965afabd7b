import PawnQuery.Proofs.Json.Values
import PawnQuery.Proofs.Report.Envelope
import PawnQuery.Proofs.Report.Payload
import PawnQuery.Report.Decode

/-!
# Which lines are records

A line is a record just if it is, once its numbers are mended, the text of an envelope of a known
kind whose payload fits the kind.  A kind that is not known is told as soon as the envelope has been
read, whatever the payload; everything else is a fault of the line.
-/

namespace PawnQuery.Report

open PawnQuery.Json

/-- The payload of a record of this kind. -/
def Kind.Fits : Kind → Value → Prop
  | .diagnostic => IsDiagnostic
  | .includedFiles => IsListOf IsIncludedFile
  | .symbols _ => IsListOf IsSymbol

/-- The line is the text of an envelope of this kind and payload, once its numbers are mended. -/
def Encloses (line : List Char) (kind : String) (payload : Value) : Prop :=
  ∃ d, Document.IsText IsNumber d (normalizeNonFinite line) ∧ IsEnvelope d kind payload

theorem encloses_iff {line : List Char} {kind : String} {payload : Value} :
    Encloses line kind payload ↔
      Envelope.parse (normalizeNonFinite line) = .ok ⟨kind, payload⟩ :=
  Envelope.parse_eq_ok.symm

theorem Encloses.orderly {line : List Char} {kind : String} {payload : Value}
    (encloses : Encloses line kind payload) : Orderly (depthLimit - 1) payload := by
  have carried {documents : List Document} : Carries documents payload →
      Orderly (depthLimit - 1) payload
    | .absent => .null
    | .present denotes => denotes.orderly
  obtain ⟨d, -, isEnvelope⟩ := encloses
  cases isEnvelope with
  | object named single speaks carries => exact carried carries
  | list speaks carries => exact carried carries

/-! ## Payloads -/

theorem exists_map_iff {outcome : Except ε α} {f : α → β} :
    (∃ b, outcome.map f = .ok b) ↔ ∃ a, outcome = .ok a := by
  cases outcome <;> simp [Except.map]

theorem accepts_symbols {depth : Nat} {payload : Value} (orderly : Orderly depth payload) :
    Accepts (readList Symbol.ofValue) payload ↔ IsListOf IsSymbol payload := by
  rw [accepts_readList]
  refine exists_congr fun items => and_congr_right ?_
  rintro rfl
  obtain ⟨inner, -, inside⟩ := orderly.items
  exact forall₂_congr fun v listed => Symbol.accepts_ofValue (inside v listed).ascending

theorem exists_ofPayload_iff {kind : Kind} {payload : Value} {depth : Nat}
    (orderly : Orderly depth payload) :
    (∃ r, Record.ofPayload kind payload = .ok r) ↔ kind.Fits payload := by
  cases kind with
  | diagnostic => exact exists_map_iff.trans (Diagnostic.accepts_ofValue orderly.ascending)
  | includedFiles =>
    have accepts : Accepts (readList IncludedFile.ofValue) = IsListOf IsIncludedFile := by
      rw [accepts_readList, IncludedFile.accepts_ofValue]
    exact exists_map_iff.trans (iff_of_eq (congrFun accepts payload))
  | symbols category => exact exists_map_iff.trans (accepts_symbols orderly)

/-! ## Lines -/

theorem ofName?_eq_some_iff {name : String} {kind : Kind} :
    Kind.ofName? name = some kind ↔ kind.name = name := by
  constructor
  · intro found
    simpa using List.find?_some found
  · rintro rfl
    exact Kind.ofName?_name kind

theorem ofName?_eq_none_iff {name : String} :
    Kind.ofName? name = none ↔ ∀ kind : Kind, kind.name ≠ name := by
  simp [Kind.ofName?]

theorem decodeLine_eq_unknownKind_iff {line : List Char} {name : String} :
    decodeLine line = .error (.unknownKind name) ↔
      (∃ payload, Encloses line name payload) ∧ ∀ kind : Kind, kind.name ≠ name := by
  constructor
  · intro fails
    unfold decodeLine at fails
    split at fails
    next => cases fails
    next envelope parses =>
      split at fails
      next unknown =>
        cases fails
        exact ⟨⟨_, encloses_iff.mpr parses⟩, ofName?_eq_none_iff.mp unknown⟩
      next => split at fails <;> cases fails
  · rintro ⟨⟨payload, encloses⟩, unknown⟩
    simp [decodeLine, encloses_iff.mp encloses, ofName?_eq_none_iff.mpr unknown]

/-- A record is what its kind makes of the payload. -/
theorem decodeLine_eq_ok_iff {line : List Char} {r : Record} :
    decodeLine line = .ok r ↔
      ∃ payload, Encloses line r.kind.name payload ∧ Record.ofPayload r.kind payload = .ok r := by
  constructor
  · intro reads
    unfold decodeLine at reads
    split at reads
    next => cases reads
    next envelope parses =>
      split at reads
      next => cases reads
      next kind known =>
        split at reads
        next => cases reads
        next payload =>
          cases reads
          rw [Record.kind_of_ofPayload payload, ofName?_eq_some_iff.mp known]
          exact ⟨_, encloses_iff.mpr parses, payload⟩
  · rintro ⟨payload, encloses, reads⟩
    simp [decodeLine, encloses_iff.mp encloses, reads]

/-- A line that is there to be decoded is never unreadable. -/
theorem unknown_or_malformed {line : List Char} {e : LineError}
    (fails : decodeLine line = .error e) :
    (∃ name, e = .unknownKind name) ∨ ∃ fault, e = .malformed fault := by
  unfold decodeLine at fails
  split at fails
  next =>
    cases fails
    exact .inr ⟨_, rfl⟩
  next =>
    split at fails
    next =>
      cases fails
      exact .inl ⟨_, rfl⟩
    next =>
      split at fails
      next =>
        cases fails
        exact .inr ⟨_, rfl⟩
      next => cases fails

theorem exists_decodeLine_iff {line : List Char} {kind : Kind} :
    (∃ r, decodeLine line = .ok r ∧ r.kind = kind) ↔
      ∃ payload, Encloses line kind.name payload ∧ kind.Fits payload := by
  constructor
  · rintro ⟨r, reads, rfl⟩
    obtain ⟨payload, encloses, reads⟩ := decodeLine_eq_ok_iff.mp reads
    exact ⟨payload, encloses, (exists_ofPayload_iff encloses.orderly).mp ⟨r, reads⟩⟩
  · rintro ⟨payload, encloses, fits⟩
    obtain ⟨r, reads⟩ := (exists_ofPayload_iff encloses.orderly).mpr fits
    obtain rfl := Record.kind_of_ofPayload reads
    exact ⟨r, decodeLine_eq_ok_iff.mpr ⟨payload, encloses, reads⟩, rfl⟩

theorem exists_malformed_iff {line : List Char} :
    (∃ fault, decodeLine line = .error (.malformed fault)) ↔
      ¬ ∃ name payload, Encloses line name payload ∧
        ∀ kind : Kind, kind.name = name → kind.Fits payload := by
  constructor
  · rintro ⟨fault, fails⟩ ⟨name, payload, encloses, fits⟩
    by_cases known : ∃ kind : Kind, kind.name = name
    · obtain ⟨kind, rfl⟩ := known
      obtain ⟨r, reads, -⟩ := exists_decodeLine_iff.mpr ⟨payload, encloses, fits kind rfl⟩
      rw [reads] at fails
      cases fails
    · have unknown := decodeLine_eq_unknownKind_iff.mpr ⟨⟨payload, encloses⟩, not_exists.mp known⟩
      rw [unknown] at fails
      cases fails
  · intro outside
    cases decodes : decodeLine line with
    | ok r =>
      obtain ⟨payload, encloses, fits⟩ := exists_decodeLine_iff.mp ⟨r, decodes, rfl⟩
      refine absurd ⟨_, payload, encloses, fun kind same => ?_⟩ outside
      have equal : some kind = some r.kind := by
        rw [← Kind.ofName?_name kind, same, Kind.ofName?_name]
      cases equal
      exact fits
    | error e =>
      obtain ⟨name, rfl⟩ | ⟨fault, rfl⟩ := unknown_or_malformed decodes
      · obtain ⟨⟨payload, encloses⟩, unknown⟩ := decodeLine_eq_unknownKind_iff.mp decodes
        exact absurd ⟨name, payload, encloses, fun kind same => absurd same (unknown kind)⟩ outside
      · exact ⟨fault, rfl⟩

/-- A line is decoded just as its grammar has it: an envelope of an unknown kind is told by the
kind, one of a known kind is a record if its payload fits, and all other lines are malformed. -/
theorem decodeLine_accepts (line : List Char) :
    (∀ name, decodeLine line = .error (.unknownKind name) ↔
        (∃ payload, Encloses line name payload) ∧ ∀ kind : Kind, kind.name ≠ name) ∧
      (∀ kind : Kind, (∃ r, decodeLine line = .ok r ∧ r.kind = kind) ↔
        ∃ payload, Encloses line kind.name payload ∧ kind.Fits payload) ∧
      ((∃ fault, decodeLine line = .error (.malformed fault)) ↔
        ¬ ∃ name payload, Encloses line name payload ∧
          ∀ kind : Kind, kind.name = name → kind.Fits payload) :=
  ⟨fun _ => decodeLine_eq_unknownKind_iff, fun _ => exists_decodeLine_iff, exists_malformed_iff⟩

/-- A tag whose value is not finite, in an envelope written as a list. -/
theorem decodeLine_accepts_tags :
    ∃ payload,
      Encloses "[\"tags\",[\x7b\"name\":\"x\",\"value\":-Infinity,\"line\":null\x7d]]".toList "tags" payload ∧
        Kind.Fits (.symbols .tag) payload := by
  have decodes : (decodeLine
      "[\"tags\",[\x7b\"name\":\"x\",\"value\":-Infinity,\"line\":null\x7d]]".toList).toOption.map
        Record.kind = some (.symbols .tag) := by
    decide +kernel
  obtain ⟨r, reads, kind⟩ := Option.map_eq_some_iff.mp decodes
  exact ((decodeLine_accepts _).2.1 (.symbols .tag)).mp ⟨r, toOption_eq_some.mp reads, kind⟩

end PawnQuery.Report
