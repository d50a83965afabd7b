import Mathlib.Data.List.Forall2
import Mathlib.Data.List.Perm.Basic
import PawnQuery.Proofs.Json.CodeUnits
import PawnQuery.Proofs.Json.Members

/-!
# Documents that are alike

Two documents are alike if they are the same but for the order of members and the spelling of
strings.  Where no name is repeated, the order of members does not show in the value that a document
denotes, as the members of a value are sorted.
-/

namespace PawnQuery.Json

open PawnQuery.Json.Value (insertAll)

/-- The names of these members are all different. -/
def Distinct (members : List (List Char × Document)) : Prop :=
  members.Pairwise fun m n => ¬ SameString m.1 n.1

mutual

/-- The same document up to the order of members, whose names are all different, and the spelling of
strings. -/
inductive Alike : Document → Document → Prop where
  | null : Alike .null .null
  | bool {b : Bool} : Alike (.bool b) (.bool b)
  | number {spelling : List Char} : Alike (.number spelling) (.number spelling)
  | string {body other : List Char} (same : SameString body other) :
      Alike (.string body) (.string other)
  | array {items others : List Document} (inside : AlikeItems items others) :
      Alike (.array items) (.array others)
  | object {members respelled others : List (List Char × Document)} (distinct : Distinct members)
      (inside : AlikeMembers members respelled) (reordered : respelled.Perm others) :
      Alike (.object members) (.object others)

inductive AlikeItems : List Document → List Document → Prop where
  | nil : AlikeItems [] []
  | cons {d other : Document} {items others : List Document} (item : Alike d other)
      (more : AlikeItems items others) : AlikeItems (d :: items) (other :: others)

inductive AlikeMembers :
    List (List Char × Document) → List (List Char × Document) → Prop where
  | nil : AlikeMembers [] []
  | cons {name respelled : List Char} {d other : Document}
      {members others : List (List Char × Document)} (same : SameString name respelled)
      (value : Alike d other) (more : AlikeMembers members others) :
      AlikeMembers ((name, d) :: members) ((respelled, other) :: others)

end

/-! ## What members denote -/

/-- The documents denote the same values. -/
def Equivalent (d other : Document) : Prop :=
  ∀ depth v, Denotes depth d v ↔ Denotes depth other v

theorem Equivalent.symm {d other : Document} (equivalent : Equivalent d other) :
    Equivalent other d := fun depth v => (equivalent depth v).symm

def Corresponds (m n : List Char × Document) : Prop := SameString m.1 n.1 ∧ Equivalent m.2 n.2

theorem Corresponds.symm {m n : List Char × Document} (corresponds : Corresponds m n) :
    Corresponds n m := ⟨corresponds.1.symm, corresponds.2.symm⟩

def DenotesMember (depth : Nat) (m : List Char × Document) (e : Member) : Prop :=
  ∃ chars, Spells m.1 chars ∧ e.1 = String.ofList chars ∧ Denotes depth m.2 e.2

theorem Corresponds.denotes {depth : Nat} {m n : List Char × Document} {e : Member}
    (corresponds : Corresponds m n) (denotes : DenotesMember depth m e) :
    DenotesMember depth n e := by
  obtain ⟨chars, spells, named, value⟩ := denotes
  exact ⟨chars, corresponds.1.spells_iff.mp spells, named, (corresponds.2 depth e.2).mp value⟩

variable {depth : Nat} {members others : List (List Char × Document)} {entries : List Member}

/-- Members are denoted one by one and then put in order. -/
theorem denotesMembers_iff {done values : List Member} :
    DenotesMembers depth done members values ↔
      ∃ entries, List.Forall₂ (DenotesMember depth) members entries ∧
        values = insertAll done entries := by
  constructor
  · intro denotes
    induction members generalizing done with
    | nil =>
      cases denotes
      exact ⟨[], .nil, rfl⟩
    | cons m members inductionHypothesis =>
      cases denotes with
      | cons spells value more =>
        obtain ⟨entries, each, rfl⟩ := inductionHypothesis more
        exact ⟨(String.ofList _, _) :: entries, .cons ⟨_, spells, rfl, value⟩ each, rfl⟩
  · rintro ⟨entries, each, rfl⟩
    induction each generalizing done with
    | nil => exact .nil
    | @cons m e members entries first _ inductionHypothesis =>
      obtain ⟨name, d⟩ := m
      obtain ⟨_, v⟩ := e
      obtain ⟨chars, spells, rfl, value⟩ := first
      exact .cons spells value inductionHypothesis

/-- What a member of a value is denoted by. -/
theorem exists_denotesMember (each : List.Forall₂ (DenotesMember depth) members entries)
    {e : Member} (listed : e ∈ entries) : ∃ m ∈ members, DenotesMember depth m e := by
  induction each with
  | nil => cases listed
  | cons first _ inductionHypothesis =>
    cases listed with
    | head => exact ⟨_, List.mem_cons_self, first⟩
    | tail _ listed =>
      obtain ⟨m, among, denotes⟩ := inductionHypothesis listed
      exact ⟨m, List.mem_cons_of_mem _ among, denotes⟩

theorem nodup_names (distinct : Distinct members)
    (each : List.Forall₂ (DenotesMember depth) members entries) :
    (entries.map Prod.fst).Nodup := by
  induction each with
  | nil => exact List.Pairwise.nil
  | @cons m e members entries first more inductionHypothesis =>
    obtain ⟨apart, distinct⟩ := List.pairwise_cons.mp distinct
    rw [List.map_cons, List.nodup_cons]
    refine ⟨fun repeated => ?_, inductionHypothesis distinct⟩
    obtain ⟨other, listed, same⟩ := List.mem_map.mp repeated
    obtain ⟨n, among, chars, spells, named, -⟩ := exists_denotesMember more listed
    obtain ⟨charsFirst, spellsFirst, namedFirst, -⟩ := first
    rw [named, namedFirst] at same
    obtain rfl := String.ofList_injective same
    exact apart n among (sameString_of_spells spellsFirst spells)

/-- In which order members with different names are inserted does not matter. -/
theorem insertAll_perm {first second : List Member} (reordered : first.Perm second)
    (distinct : (first.map Prod.fst).Nodup) : insertAll [] first = insertAll [] second := by
  have distinctSecond : (second.map Prod.fst).Nodup := (reordered.map _).nodup_iff.mp distinct
  refine Value.Ascending.ext (Value.ascending_insertAll Value.ascending_nil _)
    (Value.ascending_insertAll Value.ascending_nil _) fun m => ?_
  rw [Value.mem_insertAll_iff distinct (by simp), Value.mem_insertAll_iff distinctSecond (by simp),
    reordered.mem_iff]

/-! ## Documents that are alike denote the same -/

theorem denotesAll_of_corresponds (corresponds : List.Forall₂ Corresponds members others)
    (each : List.Forall₂ (DenotesMember depth) members entries) :
    List.Forall₂ (DenotesMember depth) others entries := by
  induction corresponds generalizing entries with
  | nil => exact each
  | cons first _ inductionHypothesis =>
    cases each with
    | cons denotes more => exact .cons (first.denotes denotes) (inductionHypothesis more)

theorem forall₂_symm {R : α → α → Prop} (symm : ∀ {a b}, R a b → R b a) {list other : List α}
    (each : List.Forall₂ R list other) : List.Forall₂ R other list :=
  (each.imp fun _ _ => symm).flip

theorem denotesMembers_iff_of_alike {respelled : List (List Char × Document)}
    {values : List Member} (distinct : Distinct members)
    (corresponds : List.Forall₂ Corresponds members respelled) (reordered : respelled.Perm others) :
    DenotesMembers depth [] members values ↔ DenotesMembers depth [] others values := by
  rw [denotesMembers_iff, denotesMembers_iff]
  -- The entries are moved along with the members, and sorting them undoes that.
  constructor
  · rintro ⟨entries, each, rfl⟩
    obtain ⟨moved, eachMoved, perm⟩ :=
      List.perm_comp_forall₂ reordered.symm (denotesAll_of_corresponds corresponds each)
    exact ⟨moved, eachMoved, insertAll_perm perm.symm (nodup_names distinct each)⟩
  · rintro ⟨entries, each, rfl⟩
    obtain ⟨moved, eachMoved, perm⟩ := List.perm_comp_forall₂ reordered each
    have eachFirst := denotesAll_of_corresponds (forall₂_symm .symm corresponds) eachMoved
    exact ⟨moved, eachFirst, (insertAll_perm perm (nodup_names distinct eachFirst)).symm⟩

theorem denotesItems_of_equivalent {items others : List Document} {values : List Value}
    (equivalent : List.Forall₂ Equivalent items others) (denotes : DenotesItems depth items values) :
    DenotesItems depth others values := by
  induction equivalent generalizing values with
  | nil => exact denotes
  | cons first _ inductionHypothesis =>
    cases denotes with
    | cons item more => exact .cons ((first depth _).mp item) (inductionHypothesis more)

theorem denotesItems_iff_of_equivalent {items others : List Document} {values : List Value}
    (equivalent : List.Forall₂ Equivalent items others) :
    DenotesItems depth items values ↔ DenotesItems depth others values :=
  ⟨denotesItems_of_equivalent equivalent,
    denotesItems_of_equivalent (forall₂_symm .symm equivalent)⟩

mutual

/-- Documents that are alike denote the same values. -/
theorem Alike.equivalent {d other : Document} : Alike d other → Equivalent d other
  | .null => fun _ _ => Iff.rfl
  | .bool => fun _ _ => Iff.rfl
  | .number => fun _ _ => Iff.rfl
  | .string same => fun depth v => by
    constructor
    · intro denotes
      cases denotes with
      | string spells => exact .string (same.spells_iff.mp spells)
    · intro denotes
      cases denotes with
      | string spells => exact .string (same.spells_iff.mpr spells)
  | .array inside => fun depth v => by
    have same {depth : Nat} {values : List Value} :
        DenotesItems depth _ values ↔ DenotesItems depth _ values :=
      denotesItems_iff_of_equivalent inside.forall₂
    constructor
    · intro denotes
      cases denotes with
      | array items => exact .array (same.mp items)
    · intro denotes
      cases denotes with
      | array items => exact .array (same.mpr items)
  | .object distinct inside reordered => fun depth v => by
    have same {depth : Nat} {values : List Member} :
        DenotesMembers depth [] _ values ↔ DenotesMembers depth [] _ values :=
      denotesMembers_iff_of_alike distinct inside.forall₂ reordered
    constructor
    · intro denotes
      cases denotes with
      | object members => exact .object (same.mp members)
    · intro denotes
      cases denotes with
      | object members => exact .object (same.mpr members)

theorem AlikeItems.forall₂ {items others : List Document} :
    AlikeItems items others → List.Forall₂ Equivalent items others
  | .nil => .nil
  | .cons item more => .cons item.equivalent more.forall₂

theorem AlikeMembers.forall₂ {members others : List (List Char × Document)} :
    AlikeMembers members others → List.Forall₂ Corresponds members others
  | .nil => .nil
  | .cons same value more => .cons ⟨same, value.equivalent⟩ more.forall₂

end

end PawnQuery.Json
