import Mathlib.Data.List.Pairwise
import PawnQuery.Path.Map

/-!
# Laws of ordered maps keyed by paths

Paths that agree component by component are the same key.
-/

namespace PawnQuery.Path

theorem same_comm (p q : Path) : p.same q = q.same p := by
  rw [Bool.eq_iff_iff, same_iff, same_iff]
  exact ⟨.symm, .symm⟩

end PawnQuery.Path

namespace PawnQuery.Path.Map

variable {α : Type} {key other : Path}

theorem get?_congr (m : Map α) (same : key.Same other) : m.get? key = m.get? other := by
  have agree : ∀ p : Path, p.same key = p.same other := by
    intro p
    unfold Path.same
    rw [same]
  simp only [get?, agree]

theorem get?_insert_of_not_same (m : Map α) (value : α) (differ : ¬ key.Same other) :
    (m.insert key value).get? other = m.get? other := by
  unfold insert get?
  induction m.entries with
  | nil => simp [insertEntries, differ]
  | cons e rest inductionHypothesis =>
    by_cases same : e.1.same key = true
    · have away : e.1.same other = false := by
        rw [Bool.eq_false_iff, ne_eq, same_iff]
        exact fun this => differ ((same_iff.mp same).symm.trans this)
      simp [insertEntries, same, away]
    · simp only [insertEntries, same, Bool.false_eq_true, if_false, List.find?_cons]
      cases e.1.same other with
      | true => rfl
      | false => exact inductionHypothesis

theorem get?_insert (m : Map α) (key other : Path) (value : α) :
    (m.insert key value).get? other = if key.Same other then some value else m.get? other := by
  split
  next same => rw [← get?_congr _ same, get?_insert_self]
  next differ => exact get?_insert_of_not_same m value differ

theorem get?_erase_of_not_same (m : Map α) (differ : ¬ key.Same other) :
    (m.erase key).get? other = m.get? other := by
  unfold erase get?
  rw [List.find?_filter]
  congr 2
  funext e
  by_cases same : e.1.same other = true
  · have away : e.1.same key = false := by
      rw [Bool.eq_false_iff, ne_eq, same_iff]
      exact fun this => differ (this.symm.trans (same_iff.mp same))
    simp [same, away]
  · simp [same]

theorem get?_erase (m : Map α) (key other : Path) :
    (m.erase key).get? other = if key.Same other then none else m.get? other := by
  split
  next same => rw [← get?_congr _ same, get?_erase_self]
  next differ => exact get?_erase_of_not_same m differ

theorem isSome_get? (m : Map α) (key : Path) : (m.get? key).isSome = m.contains key := by
  rw [get?, contains, Option.isSome_map, Bool.eq_iff_iff, List.find?_isSome, List.any_eq_true]

theorem contains_iff_mem_keys {m : Map α} : m.contains key = true ↔ ∃ k ∈ m.keys, k.Same key := by
  simp [contains, keys, List.any_eq_true]

theorem contains_insert (m : Map α) (key other : Path) (value : α) :
    (m.insert key value).contains other = true ↔ key.Same other ∨ m.contains other = true := by
  rw [← isSome_get?, ← isSome_get?, get?_insert]
  split
  next same => simp [same]
  next differ => simp [differ]

theorem contains_erase (m : Map α) (key other : Path) :
    (m.erase key).contains other = true ↔ ¬ key.Same other ∧ m.contains other = true := by
  rw [← isSome_get?, ← isSome_get?, get?_erase]
  split
  next same => simp [same]
  next differ => simp [differ]

/-! ## Keys -/

/-- A new key comes last; a key that is there keeps its spelling and its place. -/
theorem keys_insert (m : Map α) (key : Path) (value : α) :
    (m.insert key value).keys = if m.contains key = true then m.keys else m.keys ++ [key] := by
  unfold insert keys contains
  induction m.entries with
  | nil => simp [insertEntries]
  | cons e rest inductionHypothesis =>
    by_cases same : e.1.same key = true
    · simp [insertEntries, same]
    · rw [Bool.not_eq_true] at same
      simp only [insertEntries, same, List.map_cons, List.any_cons, Bool.false_or,
        Bool.false_eq_true, if_false, inductionHypothesis]
      split <;> rfl

theorem keys_erase (m : Map α) (key : Path) :
    (m.erase key).keys = m.keys.filter fun k => !k.same key := by
  unfold keys erase
  rw [List.filter_map]
  rfl

theorem entries_insert_of_absent {m : Map α} (absent : m.contains key = false) {value : α} :
    (m.insert key value).entries = m.entries ++ [(key, value)] := by
  unfold contains at absent
  simp only [insert]
  generalize m.entries = entries at absent ⊢
  induction entries with
  | nil => rfl
  | cons e rest inductionHypothesis =>
    rw [List.any_cons, Bool.or_eq_false_iff] at absent
    simp [insertEntries, absent.1, inductionHypothesis absent.2]

/-- Entries under other keys stay as they are, and in their order. -/
theorem filter_entries_insert (m : Map α) (value : α) {P : Path → Bool}
    (others : ∀ k : Path, k.Same key → P k = false) :
    (m.insert key value).entries.filter (fun e => P e.1) = m.entries.filter fun e => P e.1 := by
  unfold insert
  induction m.entries with
  | nil => simp [insertEntries, others key (.refl key)]
  | cons e rest inductionHypothesis =>
    by_cases same : e.1.same key = true
    · simp [insertEntries, same, others e.1 (same_iff.mp same)]
    · simp only [insertEntries, same, Bool.false_eq_true, if_false, List.filter_cons,
        inductionHypothesis]

/-- An entry of a map with a value put under a key is that value's, or it was there before. -/
theorem mem_insert {m : Map α} {value : α} {e : Path × α} (member : e ∈ (m.insert key value).entries) :
    e.2 = value ∨ e ∈ m.entries := by
  unfold insert at member
  revert member
  induction m.entries with
  | nil => simp +contextual [insertEntries]
  | cons first rest inductionHypothesis =>
    intro member
    simp only [insertEntries] at member
    split at member
    · obtain rfl | later := List.mem_cons.mp member
      · exact .inl rfl
      · exact .inr (List.mem_cons_of_mem _ later)
    · obtain rfl | later := List.mem_cons.mp member
      · exact .inr List.mem_cons_self
      · exact (inductionHypothesis later).imp_right (List.mem_cons_of_mem _)

/-- No two keys agree component by component. -/
def Distinct (m : Map α) : Prop := m.keys.Pairwise fun key other => ¬ key.Same other

theorem distinct_empty : ({} : Map α).Distinct := List.Pairwise.nil

theorem Distinct.insert {m : Map α} (distinct : m.Distinct) (key : Path) (value : α) :
    (m.insert key value).Distinct := by
  unfold Distinct
  rw [keys_insert]
  split
  next => exact distinct
  next absent =>
    refine List.pairwise_append.mpr ⟨distinct, List.pairwise_singleton _ _, ?_⟩
    intro k member last lastMember same
    rw [List.mem_singleton.mp lastMember] at same
    exact absent (contains_iff_mem_keys.mpr ⟨k, member, same⟩)

theorem Distinct.erase {m : Map α} (distinct : m.Distinct) (key : Path) :
    (m.erase key).Distinct :=
  List.Pairwise.sublist (List.filter_sublist.map _) distinct

/-- With distinct keys every entry is the one that is found under its key. -/
theorem Distinct.get?_of_mem {m : Map α} (distinct : m.Distinct) {value : α}
    (member : (key, value) ∈ m.entries) : m.get? key = some value := by
  unfold Distinct keys at distinct
  unfold get?
  revert distinct member
  induction m.entries with
  | nil => exact fun _ member => nomatch member
  | cons head rest inductionHypothesis =>
    intro distinct member
    rw [List.map_cons, List.pairwise_cons] at distinct
    obtain rfl | later := List.mem_cons.mp member
    · simp [same]
    · have away : head.1.same key = false := by
        rw [Bool.eq_false_iff, ne_eq, same_iff]
        exact distinct.1 key (List.mem_map_of_mem later)
      rw [List.find?_cons, away]
      exact inductionHypothesis distinct.2 later

theorem Distinct.mem_values_iff {m : Map α} (distinct : m.Distinct) {value : α} :
    value ∈ m.values ↔ ∃ key, m.get? key = some value := by
  constructor
  · intro member
    obtain ⟨e, inside, rfl⟩ := List.mem_map.mp member
    exact ⟨e.1, distinct.get?_of_mem inside⟩
  · rintro ⟨key, found⟩
    obtain ⟨e, inside, rfl⟩ := Option.map_eq_some_iff.mp found
    exact List.mem_map_of_mem (List.mem_of_find?_eq_some inside)

/-- Keys that agree are one key, spelled in one way. -/
theorem Distinct.eq_of_same {m : Map α} (distinct : m.Distinct) (member : key ∈ m.keys)
    (otherMember : other ∈ m.keys) (same : key.Same other) : key = other := by
  by_contra differ
  have symmetric : Std.Symm fun k l : Path => ¬ k.Same l := ⟨fun _ _ apart this => apart this.symm⟩
  exact distinct.forall member otherMember differ same

/-! ## Several keys at once -/

def insertAll (m : Map α) (es : List (Path × α)) : Map α := es.foldl (fun m e => m.insert e.1 e.2) m

variable {es earlier later : List (Path × α)}

@[simp] theorem insertAll_nil (m : Map α) : m.insertAll [] = m := rfl

@[simp] theorem insertAll_cons (m : Map α) (e : Path × α) (es : List (Path × α)) :
    m.insertAll (e :: es) = (m.insert e.1 e.2).insertAll es := rfl

theorem insertAll_append (m : Map α) (es later : List (Path × α)) :
    m.insertAll (es ++ later) = (m.insertAll es).insertAll later := List.foldl_append

theorem get?_insertAll_of_absent (m : Map α) (absent : ∀ e ∈ es, ¬ e.1.Same key) :
    (m.insertAll es).get? key = m.get? key := by
  induction es generalizing m with
  | nil => rfl
  | cons e es inductionHypothesis =>
    rw [insertAll_cons, inductionHypothesis _ fun later member => absent later (.tail e member),
      get?_insert_of_not_same m e.2 (absent e List.mem_cons_self)]

/-- Of the values put under a key the last one stays. -/
theorem get?_insertAll_of_last (m : Map α) {last : Path × α} (same : last.1.Same key)
    (latest : ∀ e ∈ later, ¬ e.1.Same key) :
    (m.insertAll (earlier ++ last :: later)).get? key = some last.2 := by
  rw [insertAll_append, insertAll_cons, get?_insertAll_of_absent _ latest, get?_insert, if_pos same]

/-- The new keys come last, in the order in which they first occur. -/
theorem keys_insertAll (m : Map α) (es : List (Path × α)) :
    (m.insertAll es).keys = m.keys ++
      ((es.map (·.1)).filter fun key => !m.keys.any (·.same key)).eraseDupsBy
        fun key other => key.same other := by
  induction es generalizing m with
  | nil => simp
  | cons e es inductionHypothesis =>
    have there : m.contains e.1 = m.keys.any (·.same e.1) := by
      simp [contains, keys, Function.comp_def]
    rw [insertAll_cons, inductionHypothesis, keys_insert, there, List.map_cons]
    by_cases known : m.keys.any (·.same e.1) = true
    · rw [if_pos known, List.filter_cons_of_neg (by simpa using known)]
    · rw [if_neg known, List.filter_cons_of_pos (by simpa using known), List.eraseDupsBy_cons,
        List.filter_filter, List.append_assoc, List.singleton_append]
      simp [same_comm e.1, Bool.and_comm]

/-- Entries under keys that nothing is put under stay as they are, and in their order. -/
theorem filter_entries_insertAll (m : Map α) {P : Path → Bool}
    (others : ∀ e ∈ es, ∀ key : Path, key.Same e.1 → P key = false) :
    (m.insertAll es).entries.filter (fun e => P e.1) = m.entries.filter fun e => P e.1 := by
  induction es generalizing m with
  | nil => rfl
  | cons e es inductionHypothesis =>
    rw [insertAll_cons, inductionHypothesis _ fun later member => others later (.tail e member),
      filter_entries_insert m e.2 (others e List.mem_cons_self)]

theorem entries_foldl_erase (m : Map α) (gone : List Path) :
    (gone.foldl erase m).entries = m.entries.filter fun e => !gone.any (·.same e.1) := by
  induction gone generalizing m with
  | nil => exact (List.filter_eq_self.mpr fun _ _ => rfl).symm
  | cons key gone inductionHypothesis =>
    rw [List.foldl_cons, inductionHypothesis, erase, List.filter_filter]
    simp [same_comm key, Bool.and_comm]

theorem keys_foldl_erase (m : Map α) (gone : List Path) :
    (gone.foldl erase m).keys = m.keys.filter fun key => !gone.any (·.same key) := by
  rw [keys, entries_foldl_erase, keys, List.filter_map]
  rfl

theorem get?_foldl_erase (m : Map α) (gone : List Path) (key : Path) :
    (gone.foldl erase m).get? key =
      if ∃ other ∈ gone, other.Same key then none else m.get? key := by
  induction gone generalizing m with
  | nil => simp
  | cons first gone inductionHypothesis =>
    rw [List.foldl_cons, inductionHypothesis, get?_erase]
    by_cases same : first.Same key <;> simp [same]

theorem contains_foldl_erase (m : Map α) (gone : List Path) (key : Path) :
    (gone.foldl erase m).contains key = true ↔
      (∀ other ∈ gone, ¬ other.Same key) ∧ m.contains key = true := by
  rw [← isSome_get?, ← isSome_get?, get?_foldl_erase]
  split
  next taken =>
    obtain ⟨other, member, same⟩ := taken
    exact ⟨nofun, fun kept => absurd same (kept.1 other member)⟩
  next left =>
    simp only [not_exists, not_and] at left
    exact (and_iff_right left).symm

end PawnQuery.Path.Map
