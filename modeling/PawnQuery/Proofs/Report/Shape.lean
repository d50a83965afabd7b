import PawnQuery.Proofs.Json.Members
import PawnQuery.Proofs.Json.Tokens
import PawnQuery.Report.Record

/-!
# The shapes of payloads

What a record is read from is described by the members of its payload, each of which may be absent,
null or of a shape of its own.  The readers go through the members one by one.  As every name stands
once, what they make of a list of members is told by looking each name up in it.
-/

namespace PawnQuery.Report

open PawnQuery.Json

/-! ## Shapes -/

def IsString (v : Value) : Prop := ∃ s, v = .string s

def IsUnsigned32 (v : Value) : Prop := ∃ n : Nat, n ≤ 0xFFFFFFFF ∧ v = .number (.int n)

def NullOr (shape : Value → Prop) (v : Value) : Prop := v = .null ∨ shape v

def IsListOf (item : Value → Prop) (v : Value) : Prop :=
  ∃ items, v = .array items ∧ ∀ w ∈ items, item w

def IsObject (v : Value) : Prop := ∃ members, v = .object members

/-- The member is there and of this shape. -/
def Has (v : Value) (name : String) (shape : Value → Prop) : Prop := ∃ w ∈ v.get? name, shape w

/-- The member is absent or of this shape. -/
def MayHave (v : Value) (name : String) (shape : Value → Prop) : Prop := ∀ w ∈ v.get? name, shape w

theorem mayHave_of_has {v : Value} {name : String} {shape : Value → Prop}
    (has : Has v name shape) : MayHave v name shape := by
  obtain ⟨w, found, fits⟩ := has
  intro w' found'
  cases Option.mem_unique found found'
  exact fits

/-! ## Reading shapes -/

def Accepts (read : Value → Shaped α) (v : Value) : Prop := ∃ a, read v = .ok a

theorem accepts_readText : Accepts readText = IsString := by
  funext v
  cases v <;> simp [Accepts, IsString, readText, refuse]

theorem accepts_readPath : Accepts readPath = IsString := by
  funext v
  cases v <;> simp [Accepts, IsString, readPath, refuse]

theorem accepts_readUnsigned32 : Accepts readUnsigned32 = IsUnsigned32 := by
  funext v
  cases v with
  | number n =>
    cases n with
    | int i =>
      simp only [Accepts, IsUnsigned32, readUnsigned32, Value.number.injEq, Number.int.injEq]
      refine propext ⟨?_, ?_⟩
      · rintro ⟨n, reads⟩
        split at reads
        next range => exact ⟨i.toNat, by omega, by omega⟩
        next => cases reads
      · rintro ⟨n, small, rfl⟩
        exact ⟨n, by simp; omega⟩
    | real x => simp [Accepts, IsUnsigned32, readUnsigned32, refuse]
  | _ => simp [Accepts, IsUnsigned32, readUnsigned32, refuse]

theorem readOptional_of_ne_null {read : Value → Shaped α} {v : Value} (given : v ≠ .null) :
    readOptional read v = (read v).map some := by
  unfold readOptional
  split
  · exact absurd rfl given
  · rfl

theorem accepts_readOptional (read : Value → Shaped α) :
    Accepts (readOptional read) = NullOr (Accepts read) := by
  funext v
  by_cases null : v = .null
  · subst null
    exact propext (iff_of_true ⟨none, rfl⟩ (.inl rfl))
  · simp [Accepts, NullOr, null, readOptional_of_ne_null null, map_eq_ok]

theorem exists_mapM_iff {read : Value → Shaped α} {items : List Value} :
    (∃ list, items.mapM read = .ok list) ↔ ∀ v ∈ items, Accepts read v := by
  induction items with
  | nil => exact iff_of_true ⟨[], rfl⟩ (by simp)
  | cons v items inductionHypothesis =>
    rw [List.forall_mem_cons, ← inductionHypothesis, List.mapM_cons]
    constructor
    · rintro ⟨list, reads⟩
      obtain ⟨a, first, others⟩ := bind_eq_ok.mp reads
      obtain ⟨as, others, -⟩ := bind_eq_ok.mp others
      exact ⟨⟨a, first⟩, as, others⟩
    · rintro ⟨⟨a, first⟩, as, others⟩
      exact ⟨a :: as, bind_eq_ok.mpr ⟨a, first, bind_eq_ok.mpr ⟨as, others, rfl⟩⟩⟩

theorem accepts_readList (read : Value → Shaped α) :
    Accepts (readList read) = IsListOf (Accepts read) := by
  funext v
  cases v with
  | array items => simp [Accepts, IsListOf, readList, exists_mapM_iff]
  | _ => simp [Accepts, IsListOf, readList, refuse]

theorem accepts_optionalText : Accepts (readOptional readText) = NullOr IsString := by
  rw [accepts_readOptional, accepts_readText]

theorem accepts_optionalPath : Accepts (readOptional readPath) = NullOr IsString := by
  rw [accepts_readOptional, accepts_readPath]

theorem accepts_optionalUnsigned32 :
    Accepts (readOptional readUnsigned32) = NullOr IsUnsigned32 := by
  rw [accepts_readOptional, accepts_readUnsigned32]

/-! ## Reading members -/

section Members

variable {σ : Type} {step : σ → Member → Shaped σ} {members : List Member} {s after : σ}

theorem foldlM_cons_eq_ok {m : Member} :
    (m :: members).foldlM step s = .ok after ↔
      ∃ middle, step s m = .ok middle ∧ members.foldlM step middle = .ok after := by
  rw [List.foldlM_cons]
  exact bind_eq_ok

/-- A member may be of a shape if whatever is called so can be read. -/
theorem mayHave_iff {name : String} {read : Value → Shaped α} {shape : Value → Prop}
    (ascending : Value.Ascending members) (accepts : Accepts read = shape) :
    MayHave (.object members) name shape ↔ ∀ m ∈ members, m.1 = name → Accepts read m.2 := by
  rw [accepts]
  exact (Value.forall_named_iff ascending).symm

/-- All members are read if each of them is, whatever was read before. -/
theorem exists_foldlM_iff {accepts : Member → Prop}
    (step_iff : ∀ s m, (∃ after, step s m = .ok after) ↔ accepts m) (members : List Member)
    (s : σ) :
    (∃ after, members.foldlM step s = .ok after) ↔ ∀ m ∈ members, accepts m := by
  induction members generalizing s with
  | nil => exact iff_of_true ⟨s, rfl⟩ (by simp)
  | cons m members inductionHypothesis =>
    simp only [foldlM_cons_eq_ok, List.forall_mem_cons]
    constructor
    · rintro ⟨after, middle, first, others⟩
      exact ⟨(step_iff s m).mp ⟨middle, first⟩, (inductionHypothesis middle).mp ⟨after, others⟩⟩
    · rintro ⟨first, others⟩
      obtain ⟨middle, first⟩ := (step_iff s m).mpr first
      obtain ⟨after, others⟩ := (inductionHypothesis middle).mpr others
      exact ⟨after, middle, first, others⟩

/-- A field holds what is read of its member, or else what it held before. -/
def Settles (read : Value → Shaped α) (given : Option Value) (before after : α) : Prop :=
  match given with
  | none => after = before
  | some v => read v = .ok after

/-- A field is told by the member of its name, if no other member touches it. -/
theorem settles_foldlM {name : String} {read : Value → Shaped α} (field : σ → α)
    (own : ∀ s m after, m.1 = name → step s m = .ok after → read m.2 = .ok (field after))
    (other : ∀ s m after, m.1 ≠ name → step s m = .ok after → field after = field s)
    (ascending : Value.Ascending members) (folds : members.foldlM step s = .ok after) :
    Settles read (Value.member? members name) (field s) (field after) := by
  induction members generalizing s with
  | nil =>
    cases folds
    rfl
  | cons m members inductionHypothesis =>
    obtain ⟨before, ascending⟩ := Value.ascending_cons.mp ascending
    obtain ⟨middle, first, others⟩ := foldlM_cons_eq_ok.mp folds
    have rest := inductionHypothesis ascending others
    rw [Value.member?_cons]
    by_cases same : m.1 = name
    · subst same
      have absent : Value.member? members m.1 = none :=
        Value.member?_eq_none_iff.mpr fun n listed => (ne_of_lt (before n listed)).symm
      rw [absent] at rest
      rw [if_pos rfl, Settles, rest]
      exact own s m middle rfl first
    · rw [if_neg same]
      rwa [other s m middle same first] at rest

/-- The members without a meaning are kept in their order. -/
theorem extra_foldlM {names : List String} (extra : σ → List Member)
    (meant : ∀ s m after, m.1 ∈ names → step s m = .ok after → extra after = extra s)
    (unknown : ∀ s m after, m.1 ∉ names → step s m = .ok after → extra after = extra s ++ [m])
    (folds : members.foldlM step s = .ok after) :
    extra after = extra s ++ members.filter fun m => m.1 ∉ names := by
  induction members generalizing s with
  | nil =>
    cases folds
    simp
  | cons m members inductionHypothesis =>
    obtain ⟨middle, first, others⟩ := foldlM_cons_eq_ok.mp folds
    rw [inductionHypothesis others, List.filter_cons]
    by_cases known : m.1 ∈ names
    · simp [known, meant s m middle known first]
    · simp [known, unknown s m middle known first]

end Members

end PawnQuery.Report
