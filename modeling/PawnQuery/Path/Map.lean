import PawnQuery.Path.Basic

/-!
# Ordered maps keyed by paths

Keys are compared as paths.  A value put under a key that is there keeps the key's spelling and
place; a new key comes last; a removal leaves the order of the others as it was.
-/

namespace PawnQuery.Path

/-- A map from paths in order of first insertion. -/
structure Map (α : Type) where
  entries : List (Path × α) := []
deriving Repr, DecidableEq

namespace Map

variable {α : Type}

instance : Inhabited (Map α) := ⟨{}⟩

def get? (m : Map α) (key : Path) : Option α :=
  (m.entries.find? fun e => e.1.same key).map (·.2)

def contains (m : Map α) (key : Path) : Bool :=
  m.entries.any fun e => e.1.same key

def insertEntries (key : Path) (value : α) : List (Path × α) → List (Path × α)
  | [] => [(key, value)]
  | e :: rest =>
    if e.1.same key then (e.1, value) :: rest else e :: insertEntries key value rest

def insert (m : Map α) (key : Path) (value : α) : Map α :=
  ⟨insertEntries key value m.entries⟩

def erase (m : Map α) (key : Path) : Map α :=
  ⟨m.entries.filter fun e => !e.1.same key⟩

def keys (m : Map α) : List Path := m.entries.map (·.1)

def values (m : Map α) : List α := m.entries.map (·.2)

def size (m : Map α) : Nat := m.entries.length

@[simp] theorem get?_empty (key : Path) : ({} : Map α).get? key = none := rfl

theorem get?_insert_self (m : Map α) (key : Path) (value : α) :
    (m.insert key value).get? key = some value := by
  unfold insert get?
  generalize m.entries = entries
  induction entries with
  | nil => simp [insertEntries, same]
  | cons e rest ih =>
    by_cases h : e.1.same key = true
    · simp [insertEntries, h]
    · simp only [Bool.not_eq_true] at h
      simp only [insertEntries, h, Bool.false_eq_true, ↓reduceIte, List.find?_cons]
      exact ih

theorem get?_erase_self (m : Map α) (key : Path) : (m.erase key).get? key = none := by
  unfold erase get?
  simp only [Option.map_eq_none_iff, List.find?_eq_none]
  intro e he
  simp only [List.mem_filter, Bool.not_eq_true'] at he
  simp [he.2]

end Map

end PawnQuery.Path
