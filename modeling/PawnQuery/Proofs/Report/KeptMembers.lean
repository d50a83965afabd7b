import PawnQuery.Proofs.Report.RoundTrip

/-!
# What is kept of an object

A symbol or diagnostic that was read from an object is written back with just the members of the
object.  Left out is only what says nothing: a null where a member is optional, an empty list of
parameters and an empty summary.  Parameters take one shape, and a diagnostic always has a message.
Members without a meaning neither touch those with one nor are touched by them.
-/

namespace PawnQuery.Report

open PawnQuery.Json
open PawnQuery.Json.Value (Ascending member?)

/-! ## What is written back -/

def unlessNull (v : Value) : Option Value := if v = .null then none else some v

/-- What is written for a parameter: an object of its name and of its tag, if it has one. -/
def Parameter.written : Value → Value
  | .object members =>
    .object ((member? members "name").toList.map (("name", ·)) ++
      ((member? members "tag").bind unlessNull).toList.map (("tag", ·)))
  | name => .object [("name", name)]

/-- What is written for this member of a symbol. -/
def Symbol.written (name : String) (v : Value) : Option Value :=
  if name ∈ ["tag", "file", "line", "value"] then unlessNull v
  else if name = "parameters" then
    match v with
    | .array [] => none
    | .array items => some (.array (items.map Parameter.written))
    | other => some other
  else if name = "detail" ∧ v = .string "" then none
  else some v

def Diagnostic.written (name : String) (v : Value) : Option Value :=
  if name ∈ ["file", "line", "severity", "number"] then unlessNull v else some v

/-- The members of an object as they are written back. -/
def writtenMembers (written : String → Value → Option Value) (members : List Member) :
    List Member :=
  members.filterMap fun m => (written m.1 m.2).map (m.1, ·)

/-- The message that a diagnostic without one gets. -/
def addedMessage (members : List Member) : List Member :=
  if (member? members "message").isNone then [("message", .string "")] else []

theorem unlessNull_eq_some {v w : Value} : unlessNull v = some w ↔ v ≠ .null ∧ v = w := by
  simp [unlessNull]

section Members

variable {written : String → Value → Option Value} {members : List Member}

theorem mem_writtenMembers (ascending : Ascending members) {m : Member} :
    m ∈ writtenMembers written members ↔
      ∃ v ∈ member? members m.1, written m.1 v = some m.2 := by
  obtain ⟨name, w⟩ := m
  simp only [writtenMembers, List.mem_filterMap, Option.map_eq_some_iff, Option.mem_def]
  constructor
  · rintro ⟨⟨other, v⟩, listed, _, writes, same⟩
    cases same
    exact ⟨v, (Value.member?_eq_some_iff ascending).mpr listed, writes⟩
  · rintro ⟨v, found, writes⟩
    exact ⟨(name, v), Value.mem_of_member? found, w, writes, rfl⟩

theorem nodup_writtenMembers (ascending : Ascending members) :
    ((writtenMembers written members).map Prod.fst).Nodup := by
  have sublist : ((writtenMembers written members).map Prod.fst).Sublist (members.map Prod.fst) := by
    clear ascending
    induction members with
    | nil => exact .slnil
    | cons m members inductionHypothesis =>
      simp only [writtenMembers, List.filterMap_cons, List.map_cons] at inductionHypothesis ⊢
      cases written m.1 m.2 with
      | none => exact inductionHypothesis.cons _
      | some v => exact inductionHypothesis.cons_cons _
  exact (List.pairwise_map.mpr (ascending.imp fun less => ne_of_lt less)).sublist sublist

/-- A message is added where there is none. -/
theorem nodup_writtenMembers_append (ascending : Ascending members) :
    ((writtenMembers written members ++ addedMessage members).map Prod.fst).Nodup := by
  unfold addedMessage
  split
  next none =>
    have absent := Value.member?_eq_none_iff.mp (Option.isNone_iff_eq_none.mp none)
    rw [List.map_append, List.nodup_append]
    refine ⟨nodup_writtenMembers ascending, by simp, ?_⟩
    rintro name listed other listedOther rfl
    obtain rfl : name = "message" := by simpa using listedOther
    obtain ⟨m, listed, same⟩ := List.mem_map.mp listed
    obtain ⟨v, found, -⟩ := (mem_writtenMembers ascending).mp listed
    exact absent _ (Value.mem_of_member? found) same
  next => simpa using nodup_writtenMembers ascending

/-- Lists in which each name stands once are told by their members, up to the order. -/
theorem perm_of_names {others : List Member} (distinct : (members.map Prod.fst).Nodup)
    (distinctOthers : (others.map Prod.fst).Nodup) (same : ∀ m, m ∈ members ↔ m ∈ others) :
    members.Perm others := by
  have nodup {list : List Member} (distinct : (list.map Prod.fst).Nodup) : list.Nodup :=
    List.Pairwise.of_map Prod.fst (fun _ _ => mt (congrArg Prod.fst)) distinct
  exact (List.perm_ext_iff_of_nodup (nodup distinct) (nodup distinctOthers)).mpr same

/-- The members without a meaning are those that are kept besides. -/
theorem composed_of_filter {names : List String} {known extra : List Member}
    (distinct : names.Nodup) (sublist : (known.map Prod.fst).Sublist names)
    (ascending : Ascending members) (kept : extra = members.filter (·.1 ∉ names)) :
    Composed names known extra := by
  subst kept
  refine ⟨distinct, sublist, ascending.filter _, fun m listed => ?_⟩
  simpa using (List.mem_filter.mp listed).2

/-- An optional member is written just if there was a value other than null for it. -/
theorem mem_optionalMember {name : String} {read : Value → Shaped α} (write : α → Value)
    {field : Option α} (m : Member)
    (settles : Settles (readOptional read) (member? members name) none field)
    (inverse : ∀ v a, read v = .ok a → write a = v) :
    m ∈ optionalMember name write field ↔
      m.1 = name ∧ ∃ v ∈ member? members m.1, unlessNull v = some m.2 := by
  obtain ⟨other, w⟩ := m
  simp only [optionalMember, List.mem_map, Option.mem_toList, Prod.mk.injEq, unlessNull_eq_some]
  constructor
  · rintro ⟨a, found, rfl, rfl⟩
    obtain ⟨v, given, notNull, reads⟩ := exists_of_settles settles found
    exact ⟨rfl, v, given, notNull, (inverse v a reads).symm⟩
  · rintro ⟨rfl, v, given, notNull, rfl⟩
    rw [Option.mem_def.mp given] at settles
    have reads : readOptional read v = .ok field := settles
    rw [readOptional_of_ne_null notNull] at reads
    obtain ⟨a, read, rfl⟩ := map_eq_ok.mp reads
    exact ⟨a, rfl, rfl, inverse v a read⟩

end Members

/-! ## Members with and without a meaning -/

section Apart

variable {σ : Type} {step : σ → Member → Shaped σ} {names : List String} {members : List Member}

/-- If members without a meaning are only added to what is kept, and those with a meaning do not
look at it, then both can be read on their own. -/
theorem foldlM_apart (keep : List Member → σ → σ) (nothing : ∀ s, keep [] s = s)
    (more : ∀ kept s m, keep [m] (keep kept s) = keep (kept ++ [m]) s)
    (meant : ∀ kept s m, m.1 ∈ names → step (keep kept s) m = (step s m).map (keep kept))
    (unknown : ∀ s m, m.1 ∉ names → step s m = .ok (keep [m] s)) (s : σ) :
    members.foldlM step s =
      ((members.filter (·.1 ∈ names)).foldlM step s).map (keep (members.filter (·.1 ∉ names))) := by
  -- Members without a meaning pile up in front of those with one, so some may be kept already.
  have generalized : ∀ kept s, members.foldlM step (keep kept s) =
      ((members.filter (·.1 ∈ names)).foldlM step s).map
        (keep (kept ++ members.filter (·.1 ∉ names))) := by
    induction members with
    | nil => simp [Except.map, pure, Except.pure]
    | cons m members inductionHypothesis =>
      intro kept s
      by_cases known : m.1 ∈ names
      · simp only [List.filter_cons, known, not_true_eq_false, decide_true, decide_false, if_true,
          Bool.false_eq_true, if_false, List.foldlM_cons, meant kept s m known]
        cases step s m with
        | error fault => rfl
        | ok middle => exact inductionHypothesis kept middle
      · simp only [List.filter_cons, known, not_false_eq_true, decide_true, decide_false, if_true,
          Bool.false_eq_true, if_false, List.foldlM_cons, unknown _ m known, more]
        have others := inductionHypothesis (kept ++ [m]) s
        rwa [List.append_assoc, List.singleton_append] at others
  simpa [nothing] using generalized [] s

theorem map_congr {read : Shaped α} {f g : α → β} (same : ∀ a, read = .ok a → f a = g a) :
    read.map f = read.map g := by
  cases read with
  | error fault => rfl
  | ok a => exact congrArg Except.ok (same a rfl)

end Apart

theorem eq_of_readText {v : Value} {s : String} (reads : readText v = .ok s) :
    .string s = v := by
  cases v <;> simp_all [readText, refuse]

theorem eq_of_readPath {v : Value} {p : Path} (reads : readPath v = .ok p) : pathValue p = v := by
  cases v with
  | string s =>
    cases reads
    rfl
  | _ => cases reads

theorem eq_of_readUnsigned32 {v : Value} {n : Nat} (reads : readUnsigned32 v = .ok n) :
    natValue n = v := by
  unfold readUnsigned32 at reads
  split at reads
  next i =>
    split at reads
    next range =>
      cases reads
      simp [natValue, range.1]
    next => cases reads
  next => cases reads

/-! ## Parameters -/

theorem Parameter.toValue_of_ofValue {v : Value} {p : Parameter} (reads : ofValue v = .ok p) :
    p.toValue = written v := by
  cases v with
  | string s =>
    cases reads
    rfl
  | object members =>
    simp only [ofValue] at reads
    split at reads
    all_goals cases reads
    all_goals simp_all [toValue, written, optionalMember, unlessNull]
  | _ => cases reads

theorem map_toValue_of_mapM {items : List Value} {list : List Parameter}
    (reads : items.mapM Parameter.ofValue = .ok list) :
    list.map Parameter.toValue = items.map Parameter.written := by
  induction items generalizing list with
  | nil =>
    cases reads
    rfl
  | cons v items inductionHypothesis =>
    rw [List.mapM_cons] at reads
    obtain ⟨p, first, reads⟩ := bind_eq_ok.mp reads
    obtain ⟨others, readOthers, same⟩ := bind_eq_ok.mp reads
    cases same
    rw [List.map_cons, List.map_cons, Parameter.toValue_of_ofValue first,
      inductionHypothesis readOthers]

/-- A text that is written always is the one that was given, or empty. -/
theorem eq_string_iff {given : Option Value} {before after : String}
    (settles : Settles readText given before after) {w : Value} :
    w = .string after ↔ given = some w ∨ given = none ∧ w = .string before := by
  cases given with
  | none =>
    have same : after = before := settles
    simp [same]
  | some v =>
    have reads : readText v = .ok after := settles
    simp [← eq_of_readText reads, eq_comm]

/-! ## Diagnostics -/

namespace Diagnostic

variable {members : List Member} {d : Diagnostic}

/-- The member was given and is written, or it is the message that was missing. -/
theorem mem_members_iff (ascending : Ascending members)
    (reads : ofValue (.object members) = .ok d) {m : Member} :
    m ∈ d.members ↔ m ∈ writtenMembers written members ++ addedMessage members := by
  obtain ⟨file, line, severity, number, message, extra⟩ := settles_ofValue ascending reads
  have inFile := mem_optionalMember pathValue m file fun _ _ => eq_of_readPath
  have inLine := mem_optionalMember natValue m line fun _ _ => eq_of_readUnsigned32
  have inSeverity := mem_optionalMember .string m severity fun _ _ => eq_of_readText
  have inNumber := mem_optionalMember natValue m number fun _ _ => eq_of_readUnsigned32
  have inMessage := eq_string_iff (w := m.2) message
  obtain ⟨name, w⟩ := m
  simp only [Diagnostic.members, List.mem_append, inFile, inLine, inSeverity, inNumber, extra,
    mem_writtenMembers ascending, List.mem_singleton, List.mem_filter]
  by_cases known : name ∈ names
  · simp only [names, List.mem_cons, List.not_mem_nil, or_false] at known
    obtain rfl | rfl | rfl | rfl | rfl := known
    case inr.inr.inr.inr =>
      simpa [written, names, addedMessage] using inMessage
    all_goals simp [written, names, addedMessage]
  · have found : member? members name = some w ↔ (name, w) ∈ members :=
      Value.member?_eq_some_iff ascending
    simp_all [written, names, addedMessage]

theorem composed (ascending : Ascending members) (reads : ofValue (.object members) = .ok d) :
    Composed names d.known d.extra := by
  obtain ⟨-, -, -, -, -, extra⟩ := settles_ofValue ascending reads
  exact composed_of_filter (by decide) d.names_known ascending extra

theorem perm_members (ascending : Ascending members) (reads : ofValue (.object members) = .ok d) :
    d.members.Perm (writtenMembers written members ++ addedMessage members) :=
  perm_of_names (composed ascending reads).nodup (nodup_writtenMembers_append ascending)
    fun _ => mem_members_iff ascending reads

theorem extra_of_folds {before : Diagnostic} (folds : members.foldlM withMember before = .ok d) :
    d.extra = before.extra ++ members.filter (·.1 ∉ names) := by
  refine extra_foldlM extra ?_ ?_ folds
  all_goals
    intro s m after same step
    cases withMember_eq_ok.mp step <;> simp_all [names]

def keep (kept : List Member) (d : Diagnostic) : Diagnostic := { d with extra := d.extra ++ kept }

theorem foldlM_apart (members : List Member) (d : Diagnostic) :
    members.foldlM withMember d =
      ((members.filter (·.1 ∈ names)).foldlM withMember d).map
        (keep (members.filter (·.1 ∉ names))) := by
  refine Report.foldlM_apart keep (by simp [keep]) (by simp [keep]) ?_ ?_ d
  · intro kept d m known
    obtain ⟨name, v⟩ := m
    simp only [names, List.mem_cons, List.not_mem_nil, or_false] at known
    obtain rfl | rfl | rfl | rfl | rfl := known
    all_goals dsimp only [withMember, keep]
    · cases readOptional readPath v <;> rfl
    · cases readOptional readUnsigned32 v <;> rfl
    · cases readOptional readText v <;> rfl
    · cases readOptional readUnsigned32 v <;> rfl
    · cases readText v <;> rfl
  · intro d m unknown
    exact withMember_eq_ok.mpr (.other unknown)

/-- The members with a meaning are read as if they stood alone, and all others are kept. -/
theorem ofValue_apart (members : List Member) :
    ofValue (.object members) =
      (ofValue (.object (members.filter (·.1 ∈ names)))).map
        fun d => { d with extra := members.filter (·.1 ∉ names) } := by
  rw [ofValue, foldlM_apart]
  refine map_congr fun d folds => ?_
  simp [keep, extra_of_folds folds]

end Diagnostic

/-! ## Symbols -/

namespace Symbol

variable {members : List Member} {s : Symbol} {w : Value}

theorem eq_name_iff {given : Option Value} {name : String}
    (settles : Settles (fun v => (readText v).map some) given none (some name)) :
    w = .string name ↔ ∃ v ∈ given, written "name" v = some w := by
  cases given with
  | none => cases settles
  | some v =>
    obtain ⟨_, reads, same⟩ := map_eq_ok.mp settles
    cases same
    simp [written, ← eq_of_readText reads, eq_comm]

theorem parameters_written_iff {given : Option Value} {list : List Parameter}
    (settles : Settles (readList Parameter.ofValue) given [] list) :
    list ≠ [] ∧ w = .array (list.map Parameter.toValue) ↔
      ∃ v ∈ given, written "parameters" v = some w := by
  cases given with
  | none =>
    have none : list = [] := settles
    simp [none]
  | some v =>
    have reads : readList Parameter.ofValue v = .ok list := settles
    cases v with
    | array items =>
      have same := map_toValue_of_mapM reads
      cases items with
      | nil =>
        cases reads
        simp [written]
      | cons item items =>
        have some : list ≠ [] := by
          rintro rfl
          cases same
        simp [written, some, same, eq_comm]
    | _ => cases reads

theorem detail_written_iff {given : Option Value} {detail : String}
    (settles : Settles readText given "" detail) :
    detail ≠ "" ∧ w = .string detail ↔ ∃ v ∈ given, written "detail" v = some w := by
  cases given with
  | none =>
    have empty : detail = "" := settles
    simp [empty]
  | some v =>
    have reads : readText v = .ok detail := settles
    simp [written, ← eq_of_readText reads, eq_comm]

theorem mem_members_iff (ascending : Ascending members)
    (reads : ofValue (.object members) = .ok s) {m : Member} :
    m ∈ s.members ↔ m ∈ writtenMembers written members := by
  obtain ⟨d, folds, name, named, rfl⟩ := ofValue_object.mp reads
  obtain ⟨settlesName, tag, file, line, value, parameters, detail, extra⟩ :=
    SymbolDraft.settles_foldlM ascending folds
  rw [named] at settlesName
  have inName := eq_name_iff (w := m.2) settlesName
  have inTag := mem_optionalMember .string m tag fun _ _ => eq_of_readText
  have inFile := mem_optionalMember pathValue m file fun _ _ => eq_of_readPath
  have inLine := mem_optionalMember natValue m line fun _ _ => eq_of_readUnsigned32
  have inValue := mem_optionalMember id m value fun _ _ reads => (Except.ok.inj reads).symm
  have inParameters := parameters_written_iff (w := m.2) parameters
  have inDetail := detail_written_iff (w := m.2) detail
  obtain ⟨name, w⟩ := m
  simp only [Symbol.members, List.mem_append, inTag, inFile, inLine, inValue, extra,
    mem_parameterMember, mem_detailMember, mem_writtenMembers ascending, List.mem_singleton,
    List.mem_filter, Prod.mk.injEq]
  by_cases known : name ∈ SymbolDraft.names
  · simp only [SymbolDraft.names, List.mem_cons, List.not_mem_nil, or_false] at known
    obtain rfl | rfl | rfl | rfl | rfl | rfl | rfl := known
    case inl => simpa [SymbolDraft.names] using inName
    case inr.inr.inr.inr.inr.inl => simpa [SymbolDraft.names] using inParameters
    case inr.inr.inr.inr.inr.inr => simpa [SymbolDraft.names] using inDetail
    all_goals simp [written, SymbolDraft.names]
  · have found : member? members name = some w ↔ (name, w) ∈ members :=
      Value.member?_eq_some_iff ascending
    simp_all [written, SymbolDraft.names]

theorem composed (ascending : Ascending members) (reads : ofValue (.object members) = .ok s) :
    Composed SymbolDraft.names s.known s.extra := by
  obtain ⟨d, folds, name, -, rfl⟩ := ofValue_object.mp reads
  obtain ⟨-, -, -, -, -, -, -, extra⟩ := SymbolDraft.settles_foldlM ascending folds
  exact composed_of_filter (by decide) (names_known _) ascending extra

theorem perm_members (ascending : Ascending members) (reads : ofValue (.object members) = .ok s) :
    s.members.Perm (writtenMembers written members) :=
  perm_of_names (composed ascending reads).nodup (nodup_writtenMembers ascending)
    fun _ => mem_members_iff ascending reads

end Symbol

namespace SymbolDraft

variable {members : List Member}

theorem extra_of_folds {before d : SymbolDraft} (folds : members.foldlM withMember before = .ok d) :
    d.rest.extra = before.rest.extra ++ members.filter (·.1 ∉ names) := by
  refine extra_foldlM (·.rest.extra) ?_ ?_ folds
  all_goals
    intro s m after same step
    cases withMember_eq_ok.mp step <;> simp_all [names]

def keep (kept : List Member) (d : SymbolDraft) : SymbolDraft :=
  { d with rest := { d.rest with extra := d.rest.extra ++ kept } }

theorem foldlM_apart (members : List Member) (d : SymbolDraft) :
    members.foldlM withMember d =
      ((members.filter (·.1 ∈ names)).foldlM withMember d).map
        (keep (members.filter (·.1 ∉ names))) := by
  refine Report.foldlM_apart keep (by simp [keep]) (by simp [keep]) ?_ ?_ d
  · intro kept d m known
    obtain ⟨name, v⟩ := m
    simp only [names, List.mem_cons, List.not_mem_nil, or_false] at known
    obtain rfl | rfl | rfl | rfl | rfl | rfl | rfl := known
    all_goals dsimp only [withMember, keep]
    · cases readText v <;> rfl
    · cases readOptional readText v <;> rfl
    · cases readOptional readPath v <;> rfl
    · cases readOptional readUnsigned32 v <;> rfl
    · cases readOptional .ok v <;> rfl
    · cases readList Parameter.ofValue v <;> rfl
    · cases readText v <;> rfl
  · intro d m unknown
    exact withMember_eq_ok.mpr (.other unknown)

end SymbolDraft

theorem Symbol.ofValue_apart (members : List Member) :
    ofValue (.object members) =
      (ofValue (.object (members.filter (·.1 ∈ SymbolDraft.names)))).map
        fun s => { s with extra := members.filter (·.1 ∉ SymbolDraft.names) } := by
  rw [ofValue, ofValue, SymbolDraft.foldlM_apart]
  cases folds : (members.filter (·.1 ∈ SymbolDraft.names)).foldlM SymbolDraft.withMember {} with
  | error fault => rfl
  | ok d =>
    have extra := SymbolDraft.extra_of_folds folds
    show (d.keep _).finish = d.finish.map _
    unfold SymbolDraft.finish SymbolDraft.keep
    cases d.name <;> simp [extra, Except.map]

/-! ## What is kept -/

/-- An object with just these members, each name standing once. -/
def HoldsJust (v : Value) (kept : List Member) : Prop :=
  ∃ members, v = .object members ∧ (members.map Prod.fst).Nodup ∧ members.Perm kept

/-- A symbol and a diagnostic are written back with the members that they were read from, and
members with and without a meaning do not touch each other. -/
theorem keeps_members :
    (∀ members s, Ascending members → Symbol.ofValue (.object members) = .ok s →
      HoldsJust s.toValue (writtenMembers Symbol.written members)) ∧
    (∀ members d, Ascending members → Diagnostic.ofValue (.object members) = .ok d →
      HoldsJust d.toValue
        (writtenMembers Diagnostic.written members ++ addedMessage members)) ∧
    (∀ members, Symbol.ofValue (.object members) =
      (Symbol.ofValue (.object (members.filter (·.1 ∈ SymbolDraft.names)))).map
        fun s => { s with extra := members.filter (·.1 ∉ SymbolDraft.names) }) ∧
    ∀ members, Diagnostic.ofValue (.object members) =
      (Diagnostic.ofValue (.object (members.filter (·.1 ∈ Diagnostic.names)))).map
        fun d => { d with extra := members.filter (·.1 ∉ Diagnostic.names) } := by
  refine ⟨fun members s ascending reads => ?_, fun members d ascending reads => ?_,
    Symbol.ofValue_apart, Diagnostic.ofValue_apart⟩
  · exact ⟨s.members, rfl, (Symbol.composed ascending reads).nodup,
      Symbol.perm_members ascending reads⟩
  · exact ⟨d.members, rfl, (Diagnostic.composed ascending reads).nodup,
      Diagnostic.perm_members ascending reads⟩

/-- A function without a summary, with a null tag and with a member that has no meaning. -/
def sampleMembers : List Member :=
  [("detail", .string ""), ("extra", .bool true), ("name", .string "f"),
    ("parameters", .array [.string "x", .object [("name", .string "y"), ("tag", .null)]]),
    ("tag", .null)]

theorem keeps_members_sample :
    (Ascending sampleMembers ∧ ∃ s, Symbol.ofValue (.object sampleMembers) = .ok s ∧
      HoldsJust s.toValue [("extra", .bool true), ("name", .string "f"), ("parameters",
        .array [.object [("name", .string "x")], .object [("name", .string "y")]])]) ∧
    Ascending [("column", natValue 3), ("file", .null)] ∧
    ∃ d, Diagnostic.ofValue (.object [("column", natValue 3), ("file", .null)]) = .ok d ∧
      HoldsJust d.toValue [("column", natValue 3), ("message", .string "")] := by
  obtain ⟨symbols, diagnostics, -, -⟩ := keeps_members
  have ascending : Ascending sampleMembers := by
    simp only [Ascending, sampleMembers]
    decide +kernel
  have order : Ascending [("column", natValue 3), ("file", .null)] := by
    simp only [Ascending]
    decide +kernel
  have reads : Symbol.ofValue (.object sampleMembers) = .ok ⟨"f", none, none, none, none,
      [⟨"x", none⟩, ⟨"y", none⟩], "", [("extra", .bool true)]⟩ := by
    decide +kernel
  exact ⟨⟨ascending, _, reads, symbols _ _ ascending reads⟩,
    order, _, rfl, diagnostics _ _ order rfl⟩

end PawnQuery.Report
