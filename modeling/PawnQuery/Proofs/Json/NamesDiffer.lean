import PawnQuery.Proofs.Json.Alike
import PawnQuery.Proofs.Json.Writer

/-!
# Names that differ

An object may be spelled with one name twice.  In the document of a value that was read no name is
repeated, as its members are in order; in the document of a value that was put together it depends
on the names.
-/

namespace PawnQuery.Json

/-- In no object of the document two members have the same name. -/
inductive NamesDiffer : Document → Prop where
  | null : NamesDiffer .null
  | bool {b : Bool} : NamesDiffer (.bool b)
  | number {spelling : List Char} : NamesDiffer (.number spelling)
  | string {body : List Char} : NamesDiffer (.string body)
  | array {items : List Document} (inside : ∀ d ∈ items, NamesDiffer d) :
      NamesDiffer (.array items)
  | object {members : List (List Char × Document)} (distinct : Distinct members)
      (inside : ∀ m ∈ members, NamesDiffer m.2) : NamesDiffer (.object members)

theorem namesDiffer_array {items : List Document} :
    NamesDiffer (.array items) ↔ ∀ d ∈ items, NamesDiffer d :=
  ⟨fun | .array inside => inside, .array⟩

theorem namesDiffer_object {members : List (List Char × Document)} :
    NamesDiffer (.object members) ↔ Distinct members ∧ ∀ m ∈ members, NamesDiffer m.2 :=
  ⟨fun | .object distinct inside => ⟨distinct, inside⟩, fun ⟨distinct, inside⟩ =>
    .object distinct inside⟩

theorem spellItems_eq_map (items : List Value) : spellItems items = items.map spell := by
  induction items with
  | nil => rfl
  | cons v items inductionHypothesis => rw [spellItems, inductionHypothesis, List.map_cons]

theorem spellMembers_eq_map (members : List Member) :
    spellMembers members = members.map fun m => (escaped m.1, spell m.2) := by
  induction members with
  | nil => rfl
  | cons m members inductionHypothesis => rw [spellMembers, inductionHypothesis, List.map_cons]

theorem sameString_escaped {name other : String} :
    SameString (escaped name) (escaped other) ↔ name = other := by
  constructor
  · intro same
    by_contra differ
    exact not_sameString (spells_escaped name) (spells_escaped other)
      (fun equal => differ (String.toList_inj.mp equal)) same
  · rintro rfl
    exact .refl (spells_escaped name).isBody

theorem distinct_spellMembers {members : List Member} :
    Distinct (spellMembers members) ↔ (members.map Prod.fst).Nodup := by
  rw [spellMembers_eq_map, Distinct, List.pairwise_map, List.Nodup, List.pairwise_map]
  simp only [sameString_escaped]

theorem namesDiffer_spell_array {items : List Value} :
    NamesDiffer (spell (.array items)) ↔ ∀ v ∈ items, NamesDiffer (spell v) := by
  rw [spell, namesDiffer_array, spellItems_eq_map, List.forall_mem_map]

theorem namesDiffer_spell_object {members : List Member} :
    NamesDiffer (spell (.object members)) ↔
      (members.map Prod.fst).Nodup ∧ ∀ m ∈ members, NamesDiffer (spell m.2) := by
  rw [spell, namesDiffer_object, distinct_spellMembers, spellMembers_eq_map]
  simp only [List.forall_mem_map]

/-- In a value that can be read no name is repeated. -/
theorem Orderly.namesDiffer {depth : Nat} {v : Value} (orderly : Orderly depth v) :
    NamesDiffer (spell v) := by
  induction orderly with
  | null => exact .null
  | bool => exact .bool
  | number => exact .number
  | string => exact .string
  | array _ inductionHypothesis => exact namesDiffer_spell_array.mpr inductionHypothesis
  | object ascending _ inductionHypothesis =>
    exact namesDiffer_spell_object.mpr
      ⟨List.pairwise_map.mpr (ascending.imp fun less => ne_of_lt less), inductionHypothesis⟩

end PawnQuery.Json
