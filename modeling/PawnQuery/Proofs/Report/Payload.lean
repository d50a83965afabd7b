import PawnQuery.Proofs.Report.Shape

/-!
# What payloads look like

Diagnostics, included files, parameters and symbols are read just from values of their shapes.  Each
field of what is read is told by one member, and the members without a meaning are kept in their
order.
-/

namespace PawnQuery.Report

open PawnQuery.Json

/-! ## What payloads look like -/

structure IsDiagnostic (v : Value) : Prop where
  isObject : IsObject v
  file : MayHave v "file" (NullOr IsString)
  line : MayHave v "line" (NullOr IsUnsigned32)
  severity : MayHave v "severity" (NullOr IsString)
  number : MayHave v "number" (NullOr IsUnsigned32)
  message : MayHave v "message" IsString

def IsIncludedFile (v : Value) : Prop := IsString v ∨ Has v "file_path" IsString

def IsParameter (v : Value) : Prop :=
  IsString v ∨ Has v "name" IsString ∧ MayHave v "tag" (NullOr IsString)

/-- The value of a symbol may be anything. -/
structure IsSymbol (v : Value) : Prop where
  name : Has v "name" IsString
  tag : MayHave v "tag" (NullOr IsString)
  file : MayHave v "file" (NullOr IsString)
  line : MayHave v "line" (NullOr IsUnsigned32)
  parameters : MayHave v "parameters" (IsListOf IsParameter)
  detail : MayHave v "detail" IsString

/-! ## Diagnostics -/

namespace Diagnostic

/-- The members of a diagnostic that have a meaning. -/
def names : List String := ["file", "line", "severity", "number", "message"]

/-- What one member does to a diagnostic. -/
inductive Takes (d : Diagnostic) : Member → Diagnostic → Prop where
  | file {v : Value} {file : Option Path} (reads : readOptional readPath v = .ok file) :
      Takes d ("file", v) { d with file := file }
  | line {v : Value} {line : Option Nat} (reads : readOptional readUnsigned32 v = .ok line) :
      Takes d ("line", v) { d with line := line }
  | severity {v : Value} {severity : Option String}
      (reads : readOptional readText v = .ok severity) :
      Takes d ("severity", v) { d with severity := severity }
  | number {v : Value} {number : Option Nat} (reads : readOptional readUnsigned32 v = .ok number) :
      Takes d ("number", v) { d with number := number }
  | message {v : Value} {message : String} (reads : readText v = .ok message) :
      Takes d ("message", v) { d with message := message }
  | other {m : Member} (unknown : m.1 ∉ names) : Takes d m { d with extra := d.extra ++ [m] }

theorem withMember_eq_ok {d after : Diagnostic} {m : Member} :
    d.withMember m = .ok after ↔ d.Takes m after := by
  constructor
  · obtain ⟨name, v⟩ := m
    intro reads
    unfold withMember at reads
    split at reads
    case h_6 =>
      cases reads
      exact .other (by simp_all [names])
    all_goals
      rename_i equal
      dsimp only at equal
      subst equal
      obtain ⟨a, read, same⟩ := bind_eq_ok.mp reads
      cases same
    · exact .file read
    · exact .line read
    · exact .severity read
    · exact .number read
    · exact .message read
  · intro takes
    cases takes with
    | other unknown =>
      unfold withMember
      split <;> simp_all [names]
    | file reads | line reads | severity reads | number reads | message reads =>
      exact bind_eq_ok.mpr ⟨_, reads, rfl⟩

/-- Every field of a diagnostic is told by the member of its name. -/
theorem settles_ofValue {members : List Member} (ascending : Value.Ascending members)
    {d : Diagnostic} (reads : ofValue (.object members) = .ok d) :
    Settles (readOptional readPath) (Value.member? members "file") none d.file ∧
      Settles (readOptional readUnsigned32) (Value.member? members "line") none d.line ∧
      Settles (readOptional readText) (Value.member? members "severity") none d.severity ∧
      Settles (readOptional readUnsigned32) (Value.member? members "number") none d.number ∧
      Settles readText (Value.member? members "message") "" d.message ∧
      d.extra = members.filter fun m => m.1 ∉ names := by
  have folds : members.foldlM withMember {} = .ok d := reads
  refine ⟨settles_foldlM file ?_ ?_ ascending folds, settles_foldlM line ?_ ?_ ascending folds,
    settles_foldlM severity ?_ ?_ ascending folds, settles_foldlM number ?_ ?_ ascending folds,
    settles_foldlM message ?_ ?_ ascending folds, extra_foldlM extra ?_ ?_ folds⟩
  all_goals
    intro s m after same step
    cases withMember_eq_ok.mp step <;> simp_all [names]

/-- A member that may stand in a diagnostic, whatever the others are. -/
structure Allows (m : Member) : Prop where
  file : m.1 = "file" → Accepts (readOptional readPath) m.2
  line : m.1 = "line" → Accepts (readOptional readUnsigned32) m.2
  severity : m.1 = "severity" → Accepts (readOptional readText) m.2
  number : m.1 = "number" → Accepts (readOptional readUnsigned32) m.2
  message : m.1 = "message" → Accepts readText m.2

theorem exists_withMember_iff (d : Diagnostic) (m : Member) :
    (∃ after, d.withMember m = .ok after) ↔ Allows m := by
  simp only [withMember_eq_ok]
  constructor
  · rintro ⟨after, takes⟩
    constructor <;> intro same <;> cases takes <;> simp_all [Accepts, names]
  · intro allows
    obtain ⟨name, v⟩ := m
    by_cases known : name ∈ names
    · simp only [names, List.mem_cons, List.not_mem_nil, or_false] at known
      obtain rfl | rfl | rfl | rfl | rfl := known
      · exact (allows.file rfl).imp' _ fun _ => .file
      · exact (allows.line rfl).imp' _ fun _ => .line
      · exact (allows.severity rfl).imp' _ fun _ => .severity
      · exact (allows.number rfl).imp' _ fun _ => .number
      · exact (allows.message rfl).imp' _ fun _ => .message
    · exact ⟨_, .other known⟩

theorem accepts_ofValue {v : Value}
    (ascending : ∀ members, v = .object members → Value.Ascending members) :
    Accepts ofValue v ↔ IsDiagnostic v := by
  cases v with
  | object members =>
    have ascending := ascending members rfl
    have folds : Accepts ofValue (.object members) ↔ ∀ m ∈ members, Allows m :=
      exists_foldlM_iff exists_withMember_iff members {}
    rw [folds]
    constructor
    · intro all
      exact ⟨⟨members, rfl⟩,
        (mayHave_iff ascending accepts_optionalPath).mpr fun m listed => (all m listed).file,
        (mayHave_iff ascending accepts_optionalUnsigned32).mpr fun m listed => (all m listed).line,
        (mayHave_iff ascending accepts_optionalText).mpr fun m listed => (all m listed).severity,
        (mayHave_iff ascending accepts_optionalUnsigned32).mpr fun m listed =>
          (all m listed).number,
        (mayHave_iff ascending accepts_readText).mpr fun m listed => (all m listed).message⟩
    · intro shape m listed
      exact ⟨(mayHave_iff ascending accepts_optionalPath).mp shape.file m listed,
        (mayHave_iff ascending accepts_optionalUnsigned32).mp shape.line m listed,
        (mayHave_iff ascending accepts_optionalText).mp shape.severity m listed,
        (mayHave_iff ascending accepts_optionalUnsigned32).mp shape.number m listed,
        (mayHave_iff ascending accepts_readText).mp shape.message m listed⟩
  | _ =>
    constructor
    · rintro ⟨d, reads⟩
      cases reads
    · rintro ⟨⟨members, equal⟩, -⟩
      cases equal

end Diagnostic

/-! ## Included files and parameters -/

theorem IncludedFile.accepts_ofValue : Accepts IncludedFile.ofValue = IsIncludedFile := by
  funext v
  cases v with
  | object members =>
    simp only [Accepts, IsIncludedFile, IncludedFile.ofValue, IsString, Has, Value.get?]
    cases Value.member? members "file_path" with
    | none => simp
    | some w => cases w <;> simp
  | _ => simp [Accepts, IsIncludedFile, IncludedFile.ofValue, IsString, Has, Value.get?]

theorem Parameter.accepts_ofValue : Accepts Parameter.ofValue = IsParameter := by
  funext v
  cases v with
  | object members =>
    simp only [Accepts, IsParameter, Parameter.ofValue, IsString, Has, MayHave, NullOr, Value.get?]
    cases Value.member? members "name" with
    | none => simp
    | some w =>
      cases Value.member? members "tag" with
      | none => cases w <;> simp
      | some u => cases w <;> cases u <;> simp
  | _ => simp [Accepts, IsParameter, Parameter.ofValue, IsString, Has, Value.get?]

theorem accepts_parameters : Accepts (readList Parameter.ofValue) = IsListOf IsParameter := by
  rw [accepts_readList, Parameter.accepts_ofValue]

/-! ## Symbols -/

namespace SymbolDraft

/-- The members of a symbol that have a meaning. -/
def names : List String := ["name", "tag", "file", "line", "value", "parameters", "detail"]

inductive Takes (d : SymbolDraft) : Member → SymbolDraft → Prop where
  | name {v : Value} {name : String} (read : readText v = .ok name) :
      Takes d ("name", v) { d with name := some name }
  | tag {v : Value} {tag : Option String} (read : readOptional readText v = .ok tag) :
      Takes d ("tag", v) { d with rest := { d.rest with tag := tag } }
  | file {v : Value} {file : Option Path} (read : readOptional readPath v = .ok file) :
      Takes d ("file", v) { d with rest := { d.rest with file := file } }
  | line {v : Value} {line : Option Nat} (read : readOptional readUnsigned32 v = .ok line) :
      Takes d ("line", v) { d with rest := { d.rest with line := line } }
  | value {v : Value} {value : Option Value} (read : readOptional .ok v = .ok value) :
      Takes d ("value", v) { d with rest := { d.rest with value := value } }
  | parameters {v : Value} {parameters : List Parameter}
      (read : readList Parameter.ofValue v = .ok parameters) :
      Takes d ("parameters", v) { d with rest := { d.rest with parameters := parameters } }
  | detail {v : Value} {detail : String} (read : readText v = .ok detail) :
      Takes d ("detail", v) { d with rest := { d.rest with detail := detail } }
  | other {m : Member} (unknown : m.1 ∉ names) :
      Takes d m { d with rest := { d.rest with extra := d.rest.extra ++ [m] } }

theorem withMember_eq_ok {d after : SymbolDraft} {m : Member} :
    d.withMember m = .ok after ↔ d.Takes m after := by
  constructor
  · obtain ⟨name, v⟩ := m
    intro reads
    unfold withMember at reads
    split at reads
    case h_8 =>
      cases reads
      exact .other (by simp_all [names])
    all_goals
      rename_i equal
      dsimp only at equal
      subst equal
      obtain ⟨a, read, same⟩ := bind_eq_ok.mp reads
      cases same
    · exact .name read
    · exact .tag read
    · exact .file read
    · exact .line read
    · exact .value read
    · exact .parameters read
    · exact .detail read
  · intro takes
    cases takes with
    | other unknown =>
      unfold withMember
      split <;> simp_all [names]
    | name read | tag read | file read | line read | value read | parameters read | detail read =>
      exact bind_eq_ok.mpr ⟨_, read, rfl⟩

/-- Every field of a draft is told by the member of its name. -/
theorem settles_foldlM {members : List Member} (ascending : Value.Ascending members)
    {d : SymbolDraft} (folds : members.foldlM withMember {} = .ok d) :
    Settles (fun v => (readText v).map some) (Value.member? members "name") none d.name ∧
      Settles (readOptional readText) (Value.member? members "tag") none d.rest.tag ∧
      Settles (readOptional readPath) (Value.member? members "file") none d.rest.file ∧
      Settles (readOptional readUnsigned32) (Value.member? members "line") none d.rest.line ∧
      Settles (readOptional .ok) (Value.member? members "value") none d.rest.value ∧
      Settles (readList Parameter.ofValue) (Value.member? members "parameters") []
        d.rest.parameters ∧
      Settles readText (Value.member? members "detail") "" d.rest.detail ∧
      d.rest.extra = members.filter fun m => m.1 ∉ names := by
  refine ⟨Report.settles_foldlM name ?_ ?_ ascending folds,
    Report.settles_foldlM (·.rest.tag) ?_ ?_ ascending folds,
    Report.settles_foldlM (·.rest.file) ?_ ?_ ascending folds,
    Report.settles_foldlM (·.rest.line) ?_ ?_ ascending folds,
    Report.settles_foldlM (·.rest.value) ?_ ?_ ascending folds,
    Report.settles_foldlM (·.rest.parameters) ?_ ?_ ascending folds,
    Report.settles_foldlM (·.rest.detail) ?_ ?_ ascending folds,
    extra_foldlM (·.rest.extra) ?_ ?_ folds⟩
  all_goals
    intro s m after same step
    cases withMember_eq_ok.mp step <;> simp_all [names, Except.map]

structure Allows (m : Member) : Prop where
  name : m.1 = "name" → Accepts readText m.2
  tag : m.1 = "tag" → Accepts (readOptional readText) m.2
  file : m.1 = "file" → Accepts (readOptional readPath) m.2
  line : m.1 = "line" → Accepts (readOptional readUnsigned32) m.2
  parameters : m.1 = "parameters" → Accepts (readList Parameter.ofValue) m.2
  detail : m.1 = "detail" → Accepts readText m.2

theorem accepts_anything (v : Value) : Accepts (readOptional .ok) v := by
  by_cases null : v = .null
  · exact ⟨none, by rw [null]; rfl⟩
  · exact ⟨some v, by rw [readOptional_of_ne_null null]; rfl⟩

theorem exists_withMember_iff (d : SymbolDraft) (m : Member) :
    (∃ after, d.withMember m = .ok after) ↔ Allows m := by
  simp only [withMember_eq_ok]
  constructor
  · rintro ⟨after, takes⟩
    constructor <;> intro same <;> cases takes <;> simp_all [Accepts, names]
  · intro allows
    obtain ⟨name, v⟩ := m
    by_cases known : name ∈ names
    · simp only [names, List.mem_cons, List.not_mem_nil, or_false] at known
      obtain rfl | rfl | rfl | rfl | rfl | rfl | rfl := known
      · exact (allows.name rfl).imp' _ fun _ => .name
      · exact (allows.tag rfl).imp' _ fun _ => .tag
      · exact (allows.file rfl).imp' _ fun _ => .file
      · exact (allows.line rfl).imp' _ fun _ => .line
      · exact (accepts_anything v).imp' _ fun _ => .value
      · exact (allows.parameters rfl).imp' _ fun _ => .parameters
      · exact (allows.detail rfl).imp' _ fun _ => .detail
    · exact ⟨_, .other known⟩

end SymbolDraft

namespace Symbol

theorem ofValue_object {members : List Member} {s : Symbol} :
    ofValue (.object members) = .ok s ↔
      ∃ d : SymbolDraft, members.foldlM SymbolDraft.withMember {} = .ok d ∧
        ∃ name, d.name = some name ∧ s = { d.rest with name := name } := by
  rw [ofValue]
  refine bind_eq_ok.trans (exists_congr fun d => and_congr_right fun _ => ?_)
  unfold SymbolDraft.finish
  cases d.name <;> simp [eq_comm]

/-- A symbol has got a name just if there was a string called so. -/
theorem exists_name_iff {members : List Member} (ascending : Value.Ascending members)
    {d : SymbolDraft} (folds : members.foldlM SymbolDraft.withMember {} = .ok d) :
    (∃ name, d.name = some name) ↔ Has (.object members) "name" IsString := by
  have settles := (SymbolDraft.settles_foldlM ascending folds).1
  rw [← accepts_readText, Has, Value.get?]
  cases found : Value.member? members "name" with
  | none =>
    rw [found] at settles
    have unnamed : d.name = none := settles
    simp [unnamed]
  | some v =>
    rw [found] at settles
    obtain ⟨name, read, named⟩ := map_eq_ok.mp settles
    exact iff_of_true ⟨name, named.symm⟩ ⟨v, rfl, name, read⟩

theorem accepts_ofValue {v : Value}
    (ascending : ∀ members, v = .object members → Value.Ascending members) :
    Accepts ofValue v ↔ IsSymbol v := by
  cases v with
  | object members =>
    have ascending := ascending members rfl
    have folds := exists_foldlM_iff SymbolDraft.exists_withMember_iff members {}
    constructor
    · rintro ⟨s, reads⟩
      obtain ⟨d, fold, name, named, -⟩ := ofValue_object.mp reads
      have all := folds.mp ⟨d, fold⟩
      exact ⟨(exists_name_iff ascending fold).mp ⟨name, named⟩,
        (mayHave_iff ascending accepts_optionalText).mpr fun m listed => (all m listed).tag,
        (mayHave_iff ascending accepts_optionalPath).mpr fun m listed => (all m listed).file,
        (mayHave_iff ascending accepts_optionalUnsigned32).mpr fun m listed => (all m listed).line,
        (mayHave_iff ascending accepts_parameters).mpr fun m listed => (all m listed).parameters,
        (mayHave_iff ascending accepts_readText).mpr fun m listed => (all m listed).detail⟩
    · intro shape
      obtain ⟨d, fold⟩ := folds.mpr fun m listed =>
        ⟨(mayHave_iff ascending accepts_readText).mp (mayHave_of_has shape.name) m listed,
          (mayHave_iff ascending accepts_optionalText).mp shape.tag m listed,
          (mayHave_iff ascending accepts_optionalPath).mp shape.file m listed,
          (mayHave_iff ascending accepts_optionalUnsigned32).mp shape.line m listed,
          (mayHave_iff ascending accepts_parameters).mp shape.parameters m listed,
          (mayHave_iff ascending accepts_readText).mp shape.detail m listed⟩
      obtain ⟨name, named⟩ := (exists_name_iff ascending fold).mpr shape.name
      exact ⟨_, ofValue_object.mpr ⟨d, fold, name, named, rfl⟩⟩
  | _ =>
    constructor
    · rintro ⟨d, reads⟩
      cases reads
    · rintro ⟨⟨w, found, -⟩, -⟩
      cases found

end Symbol

end PawnQuery.Report
