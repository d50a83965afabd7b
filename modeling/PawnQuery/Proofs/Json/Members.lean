import Mathlib.Data.String.Basic
import PawnQuery.Proofs.Json.Grammar

/-!
# Members in the order of their names

The objects that are read keep their members sorted by name, each name once.  Sorted lists of
members are determined by what is looked up in them.
-/

namespace PawnQuery.Json.Value

/-- The names go up, so each stands once. -/
def Ascending (members : List Member) : Prop := members.Pairwise fun m n => m.1 < n.1

theorem ascending_nil : Ascending [] := List.Pairwise.nil

theorem ascending_cons {m : Member} {members : List Member} :
    Ascending (m :: members) ↔ (∀ n ∈ members, m.1 < n.1) ∧ Ascending members :=
  List.pairwise_cons

variable {name : String} {value : Value} {members : List Member}

/-! ## Looking up -/

theorem member?_cons (m : Member) (members : List Member) (name : String) :
    member? (m :: members) name = if m.1 = name then some m.2 else member? members name := by
  by_cases same : m.1 = name <;> simp [member?, same]

theorem member?_eq_none_iff : member? members name = none ↔ ∀ m ∈ members, m.1 ≠ name := by
  simp [member?]

theorem mem_of_member? {v : Value} (found : member? members name = some v) :
    (name, v) ∈ members := by
  obtain ⟨m, first, rfl⟩ := Option.map_eq_some_iff.mp found
  have same : m.1 = name := by simpa using List.find?_some first
  exact same ▸ List.mem_of_find?_eq_some first

theorem member?_eq_some_iff (ascending : Ascending members) {v : Value} :
    member? members name = some v ↔ (name, v) ∈ members := by
  refine ⟨mem_of_member?, fun listed => ?_⟩
  induction members with
  | nil => cases listed
  | cons m members inductionHypothesis =>
    obtain ⟨before, ascending⟩ := ascending_cons.mp ascending
    rw [member?_cons]
    cases listed with
    | head => rw [if_pos rfl]
    | tail _ listed =>
      have later : m.1 ≠ name := ne_of_lt (before _ listed)
      rw [if_neg later, inductionHypothesis ascending listed]

/-- All members called so are the one that is looked up. -/
theorem forall_named_iff (ascending : Ascending members) {P : Value → Prop} :
    (∀ m ∈ members, m.1 = name → P m.2) ↔ ∀ v ∈ member? members name, P v := by
  constructor
  · intro all v found
    exact all (name, v) (mem_of_member? found) rfl
  · rintro all ⟨n, v⟩ listed rfl
    exact all v ((member?_eq_some_iff ascending).mpr listed)

/-! ## Inserting -/

theorem mem_insertMember {m : Member} (listed : m ∈ insertMember name value members) :
    m = (name, value) ∨ m ∈ members := by
  induction members with
  | nil => exact .inl (List.mem_singleton.mp listed)
  | cons n members inductionHypothesis =>
    rw [insertMember] at listed
    split at listed
    · cases listed with
      | head => exact .inl rfl
      | tail _ listed => exact .inr (List.mem_cons_of_mem n listed)
    · split at listed
      · exact List.mem_cons.mp listed
      · cases listed with
        | head => exact .inr List.mem_cons_self
        | tail _ listed =>
          exact (inductionHypothesis listed).imp_right (List.mem_cons_of_mem n)

theorem ascending_insertMember (ascending : Ascending members) (name : String) (value : Value) :
    Ascending (insertMember name value members) := by
  induction members with
  | nil => simp [Ascending]
  | cons m members inductionHypothesis =>
    obtain ⟨before, rest⟩ := ascending_cons.mp ascending
    rw [insertMember]
    split
    next same => exact ascending_cons.mpr ⟨fun n listed => same ▸ before n listed, rest⟩
    next differs =>
      split
      next less =>
        refine ascending_cons.mpr ⟨List.forall_mem_cons.mpr ⟨less, ?_⟩, ascending⟩
        exact fun n listed => lt_trans less (before n listed)
      next notLess =>
        refine ascending_cons.mpr ⟨fun n listed => ?_, inductionHypothesis rest⟩
        obtain rfl | listed := mem_insertMember listed
        · exact lt_of_le_of_ne (not_lt.mp notLess) (Ne.symm differs)
        · exact before n listed

/-- A name behind all others is inserted at the end. -/
theorem insertMember_last (before : ∀ m ∈ members, m.1 < name) (value : Value) :
    insertMember name value members = members ++ [(name, value)] := by
  induction members with
  | nil => rfl
  | cons m members inductionHypothesis =>
    obtain ⟨first, others⟩ := List.forall_mem_cons.mp before
    rw [insertMember, if_neg (ne_of_gt first), if_neg (not_lt_of_gt first),
      inductionHypothesis others]
    rfl

theorem mem_insertMember_iff (absent : ∀ m ∈ members, m.1 ≠ name) {m : Member} :
    m ∈ insertMember name value members ↔ m = (name, value) ∨ m ∈ members := by
  refine ⟨mem_insertMember, ?_⟩
  rintro (rfl | listed)
  · exact mem_insertMember_self name value members
  · induction members with
    | nil => cases listed
    | cons n members inductionHypothesis =>
      obtain ⟨first, others⟩ := List.forall_mem_cons.mp absent
      rw [insertMember, if_neg first.symm]
      split
      · exact List.mem_cons_of_mem _ listed
      · cases listed with
        | head => exact List.mem_cons_self
        | tail _ listed => exact List.mem_cons_of_mem n (inductionHypothesis others listed)

/-! ## Putting members in order -/

def insertAll (done members : List Member) : List Member :=
  members.foldl (fun done m => insertMember m.1 m.2 done) done

theorem insertAll_cons (done : List Member) (m : Member) (members : List Member) :
    insertAll done (m :: members) = insertAll (insertMember m.1 m.2 done) members := rfl

theorem ascending_insertAll {done : List Member} (ascending : Ascending done)
    (members : List Member) : Ascending (insertAll done members) := by
  induction members generalizing done with
  | nil => exact ascending
  | cons m members inductionHypothesis =>
    exact inductionHypothesis (ascending_insertMember ascending m.1 m.2)

/-- Members with names of their own are all there, whatever their order. -/
theorem mem_insertAll_iff {done : List Member} (distinct : (members.map Prod.fst).Nodup)
    (apart : ∀ m ∈ members, ∀ n ∈ done, n.1 ≠ m.1) {m : Member} :
    m ∈ insertAll done members ↔ m ∈ members ∨ m ∈ done := by
  induction members generalizing done with
  | nil => simp [insertAll]
  | cons first members inductionHypothesis =>
    rw [List.map_cons, List.nodup_cons] at distinct
    obtain ⟨own, distinct⟩ := distinct
    obtain ⟨absent, apart⟩ := List.forall_mem_cons.mp apart
    have later : ∀ m ∈ members, ∀ n ∈ insertMember first.1 first.2 done, n.1 ≠ m.1 := by
      intro m listed n inserted
      obtain rfl | before := mem_insertMember inserted
      · rintro same
        exact own (same ▸ List.mem_map_of_mem listed)
      · exact apart m listed n before
    rw [insertAll_cons, inductionHypothesis distinct later, mem_insertMember_iff absent,
      List.mem_cons]
    tauto

theorem insertAll_of_ascending {done : List Member} (ascending : Ascending (done ++ members)) :
    insertAll done members = done ++ members := by
  induction members generalizing done with
  | nil => exact (List.append_nil done).symm
  | cons m members inductionHypothesis =>
    have last : ∀ n ∈ done, n.1 < m.1 := fun n listed =>
      (List.pairwise_append.mp ascending).2.2 n listed m List.mem_cons_self
    have together : done ++ m :: members = (done ++ [m]) ++ members := by simp
    rw [together] at ascending ⊢
    rw [insertAll_cons, insertMember_last last m.2]
    exact inductionHypothesis ascending

/-- Members in order are told by what is among them. -/
theorem Ascending.ext {others : List Member} (ascending : Ascending members)
    (ascendingOthers : Ascending others) (same : ∀ m, m ∈ members ↔ m ∈ others) :
    members = others := by
  have nodup {list : List Member} (ascending : Ascending list) : list.Nodup :=
    ascending.imp fun less equal => ne_of_lt less (congrArg Prod.fst equal)
  refine List.Perm.eq_of_pairwise ?_ ascending ascendingOthers
    ((List.perm_ext_iff_of_nodup (nodup ascending) (nodup ascendingOthers)).mpr same)
  intro m n _ _ less greater
  exact absurd greater (lt_asymm less)

end PawnQuery.Json.Value
