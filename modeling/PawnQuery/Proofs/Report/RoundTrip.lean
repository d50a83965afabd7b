import PawnQuery.Proofs.Json.Writer
import PawnQuery.Proofs.Report.Acceptance
import PawnQuery.Proofs.Report.NonFinite

/-!
# Writing records back

A record that was read, written back as an object with its kind and its payload, is read as the same
record again.  The members with a meaning are written first and in a fixed order, the reader sorts
them in between the others; as every name stands once, nothing gets lost or moves.
-/

namespace PawnQuery.Report

open PawnQuery.Json
open PawnQuery.Json.Value (Ascending insertAll member?)

/-! ## Members that are put in order -/

/-- Members with a meaning, each at most once, and others without. -/
structure Composed (names : List String) (known extra : List Member) : Prop where
  distinct : names.Nodup
  known : (known.map Prod.fst).Sublist names
  ascending : Ascending extra
  unknown : ∀ m ∈ extra, m.1 ∉ names

namespace Composed

variable {names : List String} {known extra : List Member} (composed : Composed names known extra)

include composed

theorem name_mem {m : Member} (listed : m ∈ known) : m.1 ∈ names :=
  composed.known.subset (List.mem_map_of_mem listed)

theorem nodup : ((known ++ extra).map Prod.fst).Nodup := by
  rw [List.map_append, List.nodup_append]
  refine ⟨composed.distinct.sublist composed.known, ?_, ?_⟩
  · exact List.pairwise_map.mpr (composed.ascending.imp fun less => ne_of_lt less)
  · rintro name listed other listedOther rfl
    obtain ⟨m, extra, same⟩ := List.mem_map.mp listedOther
    exact composed.unknown m extra (same ▸ composed.known.subset listed)

theorem mem_insertAll_iff {m : Member} :
    m ∈ insertAll [] (known ++ extra) ↔ m ∈ known ∨ m ∈ extra := by
  rw [Value.mem_insertAll_iff composed.nodup (by simp)]
  simp

/-- A name with a meaning finds what was written for it. -/
theorem member?_eq_some_iff {name : String} (listed : name ∈ names) {v : Value} :
    member? (insertAll [] (known ++ extra)) name = some v ↔ (name, v) ∈ known := by
  have ascending := Value.ascending_insertAll Value.ascending_nil (known ++ extra)
  rw [Value.member?_eq_some_iff ascending, composed.mem_insertAll_iff]
  exact ⟨fun found => found.resolve_right fun other => composed.unknown _ other listed, .inl⟩

/-- The members without a meaning are left over. -/
theorem filter_insertAll :
    (insertAll [] (known ++ extra)).filter (fun m => m.1 ∉ names) = extra := by
  have ascending := Value.ascending_insertAll Value.ascending_nil (known ++ extra)
  refine Value.Ascending.ext (ascending.filter _) composed.ascending fun m => ?_
  rw [List.mem_filter, composed.mem_insertAll_iff, decide_eq_true_eq]
  constructor
  · rintro ⟨listed, without⟩
    exact listed.resolve_left fun listed => without (composed.name_mem listed)
  · intro listed
    exact ⟨.inr listed, composed.unknown m listed⟩

end Composed

/-! ## Fields -/

/-- A field that was read is null for no value. -/
theorem exists_of_settles {read : Value → Shaped α} {given : Option Value} {after : Option α}
    {a : α} (settles : Settles (readOptional read) given none after) (field : a ∈ after) :
    ∃ v ∈ given, v ≠ .null ∧ read v = .ok a := by
  cases given with
  | none =>
    cases settles.symm.trans field
  | some v =>
    have reads : readOptional read v = .ok after := settles
    by_cases null : v = .null
    · rw [null] at reads
      cases reads
      cases field
    · rw [readOptional_of_ne_null null] at reads
      obtain ⟨a', read, same⟩ := map_eq_ok.mp reads
      cases same
      cases field
      exact ⟨v, rfl, null, read⟩

/-- A field that is written is read back, if it is read from what is written for it. -/
theorem settles_written {read : Value → Shaped α} {given : Option Value} {before after field : α}
    {written : Value → Prop} (found : ∀ v, given = some v ↔ written v)
    (settles : Settles read given before after)
    (reads : ∀ v, written v → read v = .ok field) (absent : (∀ v, ¬ written v) → field = before) :
    after = field := by
  cases given with
  | none =>
    have same : after = before := settles
    rw [same, absent fun v here => by cases (found v).mpr here]
  | some v =>
    have here := settles.symm.trans (reads v ((found v).mp rfl))
    cases here
    rfl

/-- A field that may be absent is written if there is a value for it. -/
theorem settles_optional {read : Value → Shaped α} (write : α → Value) {given : Option Value}
    {after field : Option α} (found : ∀ v, given = some v ↔ ∃ a, field = some a ∧ write a = v)
    (settles : Settles (readOptional read) given none after)
    (reads : ∀ a ∈ field, readOptional read (write a) = .ok (some a)) : after = field := by
  refine settles_written found settles ?_ fun unwritten => ?_
  · rintro v ⟨a, rfl, rfl⟩
    exact reads a rfl
  · cases field with
    | none => rfl
    | some a => exact absurd ⟨a, rfl, rfl⟩ (unwritten (write a))

theorem names_optionalMember (name : String) (write : α → Value) (field : Option α) :
    ((optionalMember name write field).map Prod.fst).Sublist [name] := by
  cases field <;> simp [optionalMember]

theorem readUnsigned32_le {v : Value} {n : Nat} (reads : readUnsigned32 v = .ok n) :
    n ≤ 0xFFFFFFFF := by
  unfold readUnsigned32 at reads
  split at reads
  next =>
    split at reads
    next range =>
      cases reads
      omega
    next => cases reads
  next => cases reads

theorem readUnsigned32_natValue {n : Nat} (small : n ≤ 0xFFFFFFFF) :
    readOptional readUnsigned32 (natValue n) = .ok (some n) := by
  have range : (0 : Int) ≤ n ∧ (n : Int) ≤ 0xFFFFFFFF := by omega
  simp [natValue, readOptional, readUnsigned32, range, Except.map]

theorem orderly_natValue {n : Nat} (small : n ≤ 0xFFFFFFFF) (depth : Nat) :
    Orderly depth (natValue n) := by
  refine .number ⟨?_, ?_⟩
  · omega
  · have wide : (0xFFFFFFFF : Nat) ≤ greatestInteger := by decide
    omega

/-! ## Diagnostics -/

namespace Diagnostic

/-- A diagnostic that can be read where lists and objects inside of it may nest `depth` deep. -/
structure IsRead (depth : Nat) (d : Diagnostic) : Prop where
  line : ∀ n ∈ d.line, n ≤ 0xFFFFFFFF
  number : ∀ n ∈ d.number, n ≤ 0xFFFFFFFF
  ascending : Ascending d.extra
  unknown : ∀ m ∈ d.extra, m.1 ∉ names
  orderly : ∀ m ∈ d.extra, Orderly depth m.2

theorem isRead_of_ofValue {depth : Nat} {v : Value} {d : Diagnostic}
    (orderly : Orderly (depth + 1) v) (reads : ofValue v = .ok d) : d.IsRead depth := by
  cases orderly with
  | object ascending inside =>
    obtain ⟨-, line, -, number, -, extra⟩ := settles_ofValue ascending reads
    refine ⟨fun n field => ?_, fun n field => ?_, ?_, fun m listed => ?_, fun m listed => ?_⟩
    · obtain ⟨v, -, -, read⟩ := exists_of_settles line field
      exact readUnsigned32_le read
    · obtain ⟨v, -, -, read⟩ := exists_of_settles number field
      exact readUnsigned32_le read
    · exact extra ▸ ascending.filter _
    · rw [extra] at listed
      simpa using (List.mem_filter.mp listed).2
    · rw [extra] at listed
      exact inside m (List.mem_filter.mp listed).1
  | _ => cases reads

/-- The members with a meaning that are written. -/
def known (d : Diagnostic) : List Member :=
  optionalMember "file" pathValue d.file ++ optionalMember "line" natValue d.line ++
    optionalMember "severity" .string d.severity ++ optionalMember "number" natValue d.number ++
    [("message", .string d.message)]

theorem members_eq (d : Diagnostic) : d.members = d.known ++ d.extra := rfl

theorem names_known (d : Diagnostic) : (d.known.map Prod.fst).Sublist names := by
  have sublist := ((((names_optionalMember "file" pathValue d.file).append
    (names_optionalMember "line" natValue d.line)).append
    (names_optionalMember "severity" .string d.severity)).append
    (names_optionalMember "number" natValue d.number)).append
    (List.Sublist.refl ["message"])
  simp only [known, List.map_append]
  exact sublist

variable {depth : Nat} {d : Diagnostic} (isRead : d.IsRead depth)

include isRead

theorem IsRead.composed : Composed names d.known d.extra :=
  ⟨by decide, d.names_known, isRead.ascending, isRead.unknown⟩

/-- Each member that is written can be read on its own, and written again. -/
theorem IsRead.takes_and_orderly {m : Member} (listed : m ∈ d.members) :
    (∃ after, Takes {} m after) ∧ Orderly depth m.2 := by
  simp only [members_eq, known, optionalMember, List.mem_append, List.mem_map, Option.mem_toList,
    List.mem_singleton] at listed
  obtain (((((⟨a, field, rfl⟩ | ⟨a, field, rfl⟩) | ⟨a, field, rfl⟩) | ⟨a, field, rfl⟩) | rfl) |
    listed) := listed
  · exact ⟨⟨_, .file rfl⟩, .string⟩
  · have small := isRead.line a field
    exact ⟨⟨_, .line (readUnsigned32_natValue small)⟩, orderly_natValue small depth⟩
  · exact ⟨⟨_, .severity rfl⟩, .string⟩
  · have small := isRead.number a field
    exact ⟨⟨_, .number (readUnsigned32_natValue small)⟩, orderly_natValue small depth⟩
  · exact ⟨⟨_, .message rfl⟩, .string⟩
  · exact ⟨⟨_, .other (isRead.unknown m listed)⟩, isRead.orderly m listed⟩

theorem IsRead.ofValue_insertAll : ofValue (.object (insertAll [] d.members)) = .ok d := by
  have composed := isRead.composed
  have accepts : ∃ after, (insertAll [] d.members).foldlM withMember {} = .ok after := by
    refine (exists_foldlM_iff exists_withMember_iff _ _).mpr fun m listed => ?_
    obtain ⟨⟨after, takes⟩, -⟩ := isRead.takes_and_orderly
      (List.mem_append.mpr (composed.mem_insertAll_iff.mp listed))
    exact (exists_withMember_iff {} m).mp ⟨after, withMember_eq_ok.mpr takes⟩
  obtain ⟨after, folds⟩ := accepts
  obtain ⟨file, line, severity, number, message, extra⟩ :=
    settles_ofValue (Value.ascending_insertAll Value.ascending_nil _) folds
  have found {name : String} (listed : name ∈ names) (v : Value) :
      member? (insertAll [] d.members) name = some v ↔ (name, v) ∈ d.known :=
    composed.member?_eq_some_iff listed
  have sameFile : after.file = d.file :=
    settles_optional pathValue
      (fun v => (found (by decide) v).trans (by simp [known, optionalMember])) file fun _ _ => rfl
  have sameLine : after.line = d.line :=
    settles_optional natValue
      (fun v => (found (by decide) v).trans (by simp [known, optionalMember])) line
      fun n field => readUnsigned32_natValue (isRead.line n field)
  have sameSeverity : after.severity = d.severity :=
    settles_optional .string
      (fun v => (found (by decide) v).trans (by simp [known, optionalMember])) severity
      fun _ _ => rfl
  have sameNumber : after.number = d.number :=
    settles_optional natValue
      (fun v => (found (by decide) v).trans (by simp [known, optionalMember])) number
      fun n field => readUnsigned32_natValue (isRead.number n field)
  have sameMessage : after.message = d.message := by
    refine settles_written (found (by decide)) message ?_ ?_ <;>
      simp [known, optionalMember, readText]
  have sameExtra : after.extra = d.extra := extra.trans composed.filter_insertAll
  rw [ofValue, folds]
  obtain ⟨_, _, _, _, _, _⟩ := after
  simp_all

/-- What is written of a diagnostic denotes its members in order. -/
theorem IsRead.denotes (integral : Integral d.toValue) :
    Denotes (depth + 1) (spell d.toValue) (.object (insertAll [] d.members)) := by
  cases integral with
  | object integral =>
    exact .object (denotes_spellMembers [] d.members
      (fun _ listed => (isRead.takes_and_orderly listed).2) integral)

end Diagnostic

/-! ## Included files and parameters -/

theorem IncludedFile.ofValue_toValue (f : IncludedFile) : ofValue f.toValue = .ok f := by
  simp [toValue, ofValue, pathValue, Value.member?]

theorem Parameter.ofValue_toValue (p : Parameter) : ofValue p.toValue = .ok p := by
  obtain ⟨name, tag⟩ := p
  cases tag <;> simp [toValue, ofValue, optionalMember, Value.member?]

theorem IncludedFile.orderly_toValue (f : IncludedFile) (depth : Nat) :
    Orderly (depth + 1) f.toValue := by
  refine .object (by simp [Ascending]) fun m listed => ?_
  obtain rfl := List.mem_singleton.mp listed
  exact .string

theorem Parameter.orderly_toValue (p : Parameter) (depth : Nat) :
    Orderly (depth + 1) p.toValue := by
  obtain ⟨name, tag⟩ := p
  cases tag with
  | none =>
    refine .object (by simp [Ascending, optionalMember]) fun m listed => ?_
    obtain rfl : m = ("name", .string name) := by simpa [optionalMember] using listed
    exact .string
  | some tag =>
    have order : "name" < "tag" := by decide
    refine .object (by simpa [Ascending, optionalMember] using order) fun m listed => ?_
    obtain rfl | rfl : m = ("name", .string name) ∨ m = ("tag", .string tag) := by
      simpa [optionalMember] using listed
    · exact .string
    · exact .string

theorem mapM_map {write : α → Value} {read : Value → Shaped α} {list : List α}
    (reads : ∀ a ∈ list, read (write a) = .ok a) : (list.map write).mapM read = .ok list := by
  induction list with
  | nil => rfl
  | cons a list inductionHypothesis =>
    obtain ⟨first, others⟩ := List.forall_mem_cons.mp reads
    rw [List.map_cons, List.mapM_cons, first, inductionHypothesis others]
    rfl

theorem exists_of_mapM {read : Value → Shaped α} {items : List Value} {list : List α} {a : α}
    (reads : items.mapM read = .ok list) (listed : a ∈ list) : ∃ v ∈ items, read v = .ok a := by
  induction items generalizing list with
  | nil =>
    cases reads
    cases listed
  | cons v items inductionHypothesis =>
    rw [List.mapM_cons] at reads
    obtain ⟨first, read, reads⟩ := bind_eq_ok.mp reads
    obtain ⟨others, readOthers, same⟩ := bind_eq_ok.mp reads
    cases same
    cases listed with
    | head => exact ⟨v, List.mem_cons_self, read⟩
    | tail _ listed =>
      obtain ⟨w, among, read⟩ := inductionHypothesis readOthers listed
      exact ⟨w, List.mem_cons_of_mem v among, read⟩

/-! ## Symbols -/

namespace Symbol

/-- A symbol that can be read where lists and objects inside of it may nest `depth` deep. -/
structure IsRead (depth : Nat) (s : Symbol) : Prop where
  line : ∀ n ∈ s.line, n ≤ 0xFFFFFFFF
  value : ∀ v ∈ s.value, v ≠ .null ∧ Orderly depth v
  ascending : Ascending s.extra
  unknown : ∀ m ∈ s.extra, m.1 ∉ SymbolDraft.names
  orderly : ∀ m ∈ s.extra, Orderly depth m.2

theorem isRead_of_ofValue {depth : Nat} {v : Value} {s : Symbol}
    (orderly : Orderly (depth + 1) v) (reads : ofValue v = .ok s) : s.IsRead depth := by
  cases orderly with
  | object ascending inside =>
    obtain ⟨d, folds, name, -, rfl⟩ := ofValue_object.mp reads
    obtain ⟨-, -, -, line, value, -, -, extra⟩ := SymbolDraft.settles_foldlM ascending folds
    refine ⟨fun n field => ?_, fun v field => ?_, ?_, fun m listed => ?_, fun m listed => ?_⟩
    · obtain ⟨v, -, -, read⟩ := exists_of_settles line field
      exact readUnsigned32_le read
    · obtain ⟨w, found, given, read⟩ := exists_of_settles value field
      cases read
      exact ⟨given, inside _ (Value.mem_of_member? found)⟩
    · exact extra ▸ ascending.filter _
    · rw [extra] at listed
      simpa using (List.mem_filter.mp listed).2
    · rw [extra] at listed
      exact inside m (List.mem_filter.mp listed).1
  | _ => cases reads

theorem isRead_of_readList {depth : Nat} {v : Value} {list : List Symbol}
    (orderly : Orderly (depth + 2) v) (reads : readList ofValue v = .ok list) :
    ∀ s ∈ list, s.IsRead depth := by
  intro s listed
  cases orderly with
  | array inside =>
    obtain ⟨item, among, read⟩ := exists_of_mapM reads listed
    exact isRead_of_ofValue (inside item among) read
  | _ => cases reads

def known (s : Symbol) : List Member :=
  [("name", .string s.name)] ++ optionalMember "tag" .string s.tag ++
    optionalMember "file" pathValue s.file ++ optionalMember "line" natValue s.line ++
    optionalMember "value" id s.value ++ s.parameterMember ++ s.detailMember

theorem members_eq (s : Symbol) : s.members = s.known ++ s.extra := rfl

theorem mem_parameterMember {s : Symbol} {m : Member} :
    m ∈ s.parameterMember ↔
      s.parameters ≠ [] ∧ m = ("parameters", .array (s.parameters.map Parameter.toValue)) := by
  unfold parameterMember
  cases s.parameters <;> simp

theorem mem_detailMember {s : Symbol} {m : Member} :
    m ∈ s.detailMember ↔ s.detail ≠ "" ∧ m = ("detail", .string s.detail) := by
  unfold detailMember
  split <;> simp_all

theorem names_parameterMember (s : Symbol) :
    (s.parameterMember.map Prod.fst).Sublist ["parameters"] := by
  unfold parameterMember
  split <;> simp

theorem names_detailMember (s : Symbol) : (s.detailMember.map Prod.fst).Sublist ["detail"] := by
  unfold detailMember
  split <;> simp

theorem names_known (s : Symbol) : (s.known.map Prod.fst).Sublist SymbolDraft.names := by
  have sublist := ((((((List.Sublist.refl ["name"]).append
    (names_optionalMember "tag" .string s.tag)).append
    (names_optionalMember "file" pathValue s.file)).append
    (names_optionalMember "line" natValue s.line)).append
    (names_optionalMember "value" id s.value)).append
    (names_parameterMember s)).append (names_detailMember s)
  simp only [known, List.map_append]
  exact sublist

theorem readParameters (list : List Parameter) :
    readList Parameter.ofValue (.array (list.map Parameter.toValue)) = .ok list :=
  mapM_map fun p _ => p.ofValue_toValue

variable {depth : Nat} {s : Symbol}

section

variable (isRead : s.IsRead depth)

include isRead

theorem IsRead.composed : Composed SymbolDraft.names s.known s.extra :=
  ⟨by decide, s.names_known, isRead.ascending, isRead.unknown⟩

theorem IsRead.readOptional_value {v : Value} (field : v ∈ s.value) :
    readOptional .ok v = .ok (some v) := by
  rw [readOptional_of_ne_null (isRead.value v field).1]
  rfl

end

variable (isRead : s.IsRead (depth + 2))

include isRead

theorem IsRead.takes_and_orderly {m : Member} (listed : m ∈ s.members) :
    (∃ after, SymbolDraft.Takes {} m after) ∧ Orderly (depth + 2) m.2 := by
  simp only [members_eq, known, optionalMember, List.mem_append, List.mem_map, Option.mem_toList,
    List.mem_singleton, mem_parameterMember, mem_detailMember] at listed
  obtain (((((((rfl | ⟨a, field, rfl⟩) | ⟨a, field, rfl⟩) | ⟨a, field, rfl⟩) | ⟨a, field, rfl⟩) |
    ⟨-, rfl⟩) | ⟨-, rfl⟩) | listed) := listed
  · exact ⟨⟨_, .name rfl⟩, .string⟩
  · exact ⟨⟨_, .tag rfl⟩, .string⟩
  · exact ⟨⟨_, .file rfl⟩, .string⟩
  · have small := isRead.line a field
    exact ⟨⟨_, .line (readUnsigned32_natValue small)⟩, orderly_natValue small _⟩
  · exact ⟨⟨_, .value (isRead.readOptional_value field)⟩, (isRead.value a field).2⟩
  · refine ⟨⟨_, .parameters (readParameters s.parameters)⟩, .array fun v listed => ?_⟩
    obtain ⟨p, -, rfl⟩ := List.mem_map.mp listed
    exact p.orderly_toValue depth
  · exact ⟨⟨_, .detail rfl⟩, .string⟩
  · exact ⟨⟨_, .other (isRead.unknown m listed)⟩, isRead.orderly m listed⟩

theorem IsRead.ofValue_insertAll : ofValue (.object (insertAll [] s.members)) = .ok s := by
  have composed := isRead.composed
  have accepts :
      ∃ after, (insertAll [] s.members).foldlM SymbolDraft.withMember {} = .ok after := by
    refine (exists_foldlM_iff SymbolDraft.exists_withMember_iff _ _).mpr fun m listed => ?_
    obtain ⟨⟨after, takes⟩, -⟩ := isRead.takes_and_orderly
      (List.mem_append.mpr (composed.mem_insertAll_iff.mp listed))
    exact (SymbolDraft.exists_withMember_iff {} m).mp
      ⟨after, SymbolDraft.withMember_eq_ok.mpr takes⟩
  obtain ⟨d, folds⟩ := accepts
  obtain ⟨name, tag, file, line, value, parameters, detail, extra⟩ :=
    SymbolDraft.settles_foldlM (Value.ascending_insertAll Value.ascending_nil _) folds
  have found {name : String} (listed : name ∈ SymbolDraft.names) (v : Value) :
      member? (insertAll [] s.members) name = some v ↔ (name, v) ∈ s.known :=
    composed.member?_eq_some_iff listed
  have sameName : d.name = some s.name := by
    refine settles_written (found (by decide)) name ?_ ?_ <;>
      simp [known, optionalMember, mem_parameterMember, mem_detailMember, readText, Except.map]
  have sameTag : d.rest.tag = s.tag :=
    settles_optional .string
      (fun v => (found (by decide) v).trans
        (by simp [known, optionalMember, mem_parameterMember, mem_detailMember])) tag
      fun _ _ => rfl
  have sameFile : d.rest.file = s.file :=
    settles_optional pathValue
      (fun v => (found (by decide) v).trans
        (by simp [known, optionalMember, mem_parameterMember, mem_detailMember])) file
      fun _ _ => rfl
  have sameLine : d.rest.line = s.line :=
    settles_optional natValue
      (fun v => (found (by decide) v).trans
        (by simp [known, optionalMember, mem_parameterMember, mem_detailMember])) line
      fun n field => readUnsigned32_natValue (isRead.line n field)
  have sameValue : d.rest.value = s.value :=
    settles_optional id
      (fun v => (found (by decide) v).trans
        (by simp [known, optionalMember, mem_parameterMember, mem_detailMember])) value
      fun _ field => isRead.readOptional_value field
  have sameParameters : d.rest.parameters = s.parameters := by
    refine settles_written (found (by decide)) parameters ?_ ?_
    · simp [known, optionalMember, mem_parameterMember, mem_detailMember, readParameters]
    · simp [known, optionalMember, mem_parameterMember, mem_detailMember]
  have sameDetail : d.rest.detail = s.detail := by
    refine settles_written (found (by decide)) detail ?_ ?_ <;>
      simp [known, optionalMember, mem_parameterMember, mem_detailMember, readText]
  have sameExtra : d.rest.extra = s.extra := extra.trans composed.filter_insertAll
  refine ofValue_object.mpr ⟨d, folds, s.name, sameName, ?_⟩
  dsimp only
  rw [sameTag, sameFile, sameLine, sameValue, sameParameters, sameDetail, sameExtra]

theorem IsRead.denotes (integral : Integral s.toValue) :
    Denotes (depth + 3) (spell s.toValue) (.object (insertAll [] s.members)) := by
  cases integral with
  | object integral =>
    exact .object (denotes_spellMembers [] s.members
      (fun _ listed => (isRead.takes_and_orderly listed).2) integral)

end Symbol

/-! ## Records -/

namespace Record

/-- What stands in the payload of a record: a diagnostic, or the list of its items. -/
def payload : Record → Value
  | .diagnostic d => d.toValue
  | .includedFiles files => .array (files.map IncludedFile.toValue)
  | .symbols _ list => .array (list.map Symbol.toValue)

/-- A record written as a line, with these blanks behind colons and commas. -/
def line (blank : List Char) (r : Record) : List Char :=
  '\x7b' :: (renderString "kind" ++ ':' :: (blank ++ (renderString r.kind.name ++ ',' ::
    (blank ++ (renderString "payload" ++ ':' :: (blank ++ (r.payload.renderChars ++ ['\x7d'])))))))

theorem denotesItems_map {depth : Nat} {write arranged : α → Value} {list : List α}
    (denotes : ∀ a ∈ list, Denotes depth (spell (write a)) (arranged a)) :
    DenotesItems depth (spellItems (list.map write)) (list.map arranged) := by
  induction list with
  | nil => exact .nil
  | cons a list inductionHypothesis =>
    obtain ⟨first, others⟩ := List.forall_mem_cons.mp denotes
    exact .cons first (inductionHypothesis others)

/-- The payload of a record that was read denotes a value from which the record is read again. -/
theorem exists_denotes {depth : Nat} {kind : Kind} {payload : Value} {r : Record}
    (orderly : Orderly (depth + 4) payload) (reads : ofPayload kind payload = .ok r)
    (integral : Integral r.payload) :
    ∃ v, Denotes (depth + 4) (spell r.payload) v ∧ ofPayload r.kind v = .ok r := by
  cases kind with
  | diagnostic =>
    obtain ⟨d, read, rfl⟩ := map_eq_ok.mp reads
    have isRead := Diagnostic.isRead_of_ofValue orderly read
    exact ⟨_, isRead.denotes integral, map_eq_ok.mpr ⟨d, isRead.ofValue_insertAll, rfl⟩⟩
  | includedFiles =>
    obtain ⟨files, -, rfl⟩ := map_eq_ok.mp reads
    have arranged : Orderly (depth + 4) (.array (files.map IncludedFile.toValue)) := by
      refine .array fun v listed => ?_
      obtain ⟨f, -, rfl⟩ := List.mem_map.mp listed
      exact f.orderly_toValue _
    exact ⟨_, denotes_spell _ arranged integral,
      map_eq_ok.mpr ⟨files, mapM_map fun f _ => f.ofValue_toValue, rfl⟩⟩
  | symbols category =>
    obtain ⟨list, read, rfl⟩ := map_eq_ok.mp reads
    have isRead := Symbol.isRead_of_readList orderly read
    cases integral with
    | array integral =>
      have denotes := denotesItems_map fun s listed =>
        (isRead s listed).denotes (integral _ (List.mem_map_of_mem listed))
      exact ⟨_, .array denotes, map_eq_ok.mpr
        ⟨list, mapM_map fun s listed => (isRead s listed).ofValue_insertAll, rfl⟩⟩

/-! ## Lines -/

/-- The line of a record is a text of an object with its kind and its payload. -/
theorem isText_line {blank : List Char} (spaces : ∀ c ∈ blank, isSpace c = true) (r : Record) :
    Document.IsText IsNumber (.object [(escaped "kind", .string (escaped r.kind.name)),
      (escaped "payload", spell r.payload)]) (r.line blank) := by
  have text : r.line blank = '\x7b' :: '"' :: (escaped "kind" ++ '"' :: ':' ::
      (blank ++ (renderString r.kind.name ++ ',' :: (blank ++ '"' :: (escaped "payload" ++ '"' ::
        ':' :: (blank ++ (r.payload.renderChars ++ ['\x7d']))))))) := by
    simp [line, renderString_eq "kind", renderString_eq "payload"]
  have payload : WrittenMembers IsNumber false [(escaped "payload", spell r.payload)] _ [] :=
    .member (.next .none (gap_blank spaces _)) (spells_escaped "payload").isBody .none
      (gap_blank spaces _) (written_renderChars ['\x7d'] r.payload) (.closed .none)
  rw [text]
  exact ⟨_, [], .none, .object (.member (.first .none) (spells_escaped "kind").isBody .none
    (gap_blank spaces _) (written_string r.kind.name _) payload), .none⟩

theorem named_escaped {name : String} {d : Document} {members : List (List Char × Document)}
    {entries : List (String × Document)} (others : Named members entries) :
    Named ((escaped name, d) :: members) ((name, d) :: entries) := by
  have named := @Named.cons _ _ d _ _ (spells_escaped name) others
  rwa [String.ofList_toList] at named

theorem isEnvelope_line {r : Record} {v : Value}
    (denotes : Denotes (depthLimit - 1) (spell r.payload) v) :
    IsEnvelope (.object [(escaped "kind", .string (escaped r.kind.name)),
      (escaped "payload", spell r.payload)]) r.kind.name v := by
  have kind : Says (.string (escaped r.kind.name)) (String.ofList r.kind.name.toList) :=
    .string (spells_escaped r.kind.name)
  rw [String.ofList_toList] at kind
  exact .object (named_escaped (named_escaped .nil)) rfl kind (.present denotes)

end Record

/-- A record that is read from a line and has no other numbers than integers is read again from the
line that it is written back as. -/
theorem decodeLine_line {line : List Char} {r : Record} (reads : decodeLine line = .ok r)
    (integral : Integral r.payload) {blank : List Char} (spaces : ∀ c ∈ blank, isSpace c = true) :
    decodeLine (r.line blank) = .ok r := by
  obtain ⟨payload, encloses, reads⟩ := decodeLine_eq_ok_iff.mp reads
  have orderly : Orderly (122 + 4) payload := encloses.orderly
  obtain ⟨v, denotes, again⟩ := Record.exists_denotes orderly reads integral
  refine decodeLine_eq_ok_iff.mpr ⟨v, ⟨_, ?_, Record.isEnvelope_line denotes⟩, again⟩
  have isText := Record.isText_line spaces r
  rwa [normalizeNonFinite_of_isText isText]

/-- A function with a quote in its name, a bare parameter and two members without a meaning. -/
def sampleFunction : Record :=
  .symbols .function
    [⟨"f\"NaN", none, none, none, none, [⟨"x", none⟩], "",
      [("a", .array [.number (.int (-2))]), ("b", .null)]⟩]

theorem decodeLine_line_sample :
    decodeLine "[\"functions\",[\x7b\"b\":null,\"name\":\"f\\\"NaN\",\"parameters\":[\"x\"],\"a\":[-2]\x7d]]".toList =
        .ok sampleFunction ∧
      Integral sampleFunction.payload ∧
      decodeLine (sampleFunction.line [' ']) = .ok sampleFunction := by
  have reads : decodeLine
      "[\"functions\",[\x7b\"b\":null,\"name\":\"f\\\"NaN\",\"parameters\":[\"x\"],\"a\":[-2]\x7d]]".toList =
        .ok sampleFunction := by
    decide +kernel
  have integral : Integral sampleFunction.payload := by
    refine .array (List.forall_mem_singleton.mpr (.object ?_))
    refine List.forall_mem_cons.mpr ⟨.string, List.forall_mem_cons.mpr ⟨?_,
      List.forall_mem_cons.mpr ⟨.array (List.forall_mem_singleton.mpr .int),
        List.forall_mem_singleton.mpr .null⟩⟩⟩
    exact .array (List.forall_mem_singleton.mpr (.object (List.forall_mem_singleton.mpr .string)))
  exact ⟨reads, integral, decodeLine_line reads integral (List.forall_mem_singleton.mpr rfl)⟩

end PawnQuery.Report
