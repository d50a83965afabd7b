import PawnQuery.Decimal.Binary64

/-!
# JSON values

The documents that reports, configurations and answers are made of.  An object keeps its members
in a list; the reader yields lists that are sorted by name and hold each name once, while answers
are written in the order in which they are composed.
-/

namespace PawnQuery.Json

open PawnQuery.Decimal (Binary64)

/-- A number: an integer that fits 64 bits, signed or not, or else a binary fraction. -/
inductive Number where
  | int (value : Int)
  | real (value : Binary64)
deriving DecidableEq, Repr, Inhabited

inductive Value where
  | null
  | bool (value : Bool)
  | number (value : Number)
  | string (value : String)
  | array (items : List Value)
  | object (members : List (String × Value))
deriving Repr, Inhabited

abbrev Member := String × Value

namespace Value

/-! ## Equality -/

mutual

def decEq : (a b : Value) → Decidable (a = b)
  | .null, .null => isTrue rfl
  | .bool a, .bool b =>
    if h : a = b then isTrue (by rw [h]) else isFalse (fun e => h (Value.bool.inj e))
  | .number a, .number b =>
    if h : a = b then isTrue (by rw [h]) else isFalse (fun e => h (Value.number.inj e))
  | .string a, .string b =>
    if h : a = b then isTrue (by rw [h]) else isFalse (fun e => h (Value.string.inj e))
  | .array a, .array b =>
    match decEqItems a b with
    | isTrue h => isTrue (by rw [h])
    | isFalse h => isFalse (fun e => h (Value.array.inj e))
  | .object a, .object b =>
    match decEqMembers a b with
    | isTrue h => isTrue (by rw [h])
    | isFalse h => isFalse (fun e => h (Value.object.inj e))
  | .null, .bool _ | .null, .number _ | .null, .string _ | .null, .array _ | .null, .object _
  | .bool _, .null | .bool _, .number _ | .bool _, .string _ | .bool _, .array _
  | .bool _, .object _
  | .number _, .null | .number _, .bool _ | .number _, .string _ | .number _, .array _
  | .number _, .object _
  | .string _, .null | .string _, .bool _ | .string _, .number _ | .string _, .array _
  | .string _, .object _
  | .array _, .null | .array _, .bool _ | .array _, .number _ | .array _, .string _
  | .array _, .object _
  | .object _, .null | .object _, .bool _ | .object _, .number _ | .object _, .string _
  | .object _, .array _ => isFalse (fun h => by cases h)

def decEqItems : (a b : List Value) → Decidable (a = b)
  | [], [] => isTrue rfl
  | [], _ :: _ => isFalse (fun h => by cases h)
  | _ :: _, [] => isFalse (fun h => by cases h)
  | a :: as, b :: bs =>
    match decEq a b, decEqItems as bs with
    | isTrue h, isTrue t => isTrue (by rw [h, t])
    | isFalse h, _ => isFalse (fun e => h (List.cons.inj e).1)
    | _, isFalse t => isFalse (fun e => t (List.cons.inj e).2)

def decEqMembers : (a b : List (String × Value)) → Decidable (a = b)
  | [], [] => isTrue rfl
  | [], _ :: _ => isFalse (fun h => by cases h)
  | _ :: _, [] => isFalse (fun h => by cases h)
  | (m, a) :: as, (n, b) :: bs =>
    if name : m = n then
      match decEq a b, decEqMembers as bs with
      | isTrue h, isTrue t => isTrue (by rw [name, h, t])
      | isFalse h, _ => isFalse (fun e => h (Prod.mk.inj (List.cons.inj e).1).2)
      | _, isFalse t => isFalse (fun e => t (List.cons.inj e).2)
    else isFalse (fun e => name (Prod.mk.inj (List.cons.inj e).1).1)

end

instance : DecidableEq Value := decEq

/-! ## Members -/

/-- The members with `name` bound to `value`: in place of the binding there was, else where the
order of names puts it. -/
def insertMember (name : String) (value : Value) : List Member → List Member
  | [] => [(name, value)]
  | (n, v) :: rest =>
    if name = n then (name, value) :: rest
    else if name < n then (name, value) :: (n, v) :: rest
    else (n, v) :: insertMember name value rest

/-- The value of the first member called `name`. -/
def member? (members : List Member) (name : String) : Option Value :=
  (members.find? fun m => m.1 == name).map (·.2)

def get? (v : Value) (name : String) : Option Value :=
  match v with
  | .object members => member? members name
  | _ => none

@[simp] theorem insertMember_nil (name : String) (value : Value) :
    insertMember name value [] = [(name, value)] := rfl

theorem mem_insertMember_self (name : String) (value : Value) (members : List Member) :
    (name, value) ∈ insertMember name value members := by
  induction members with
  | nil => simp
  | cons m rest ih =>
    obtain ⟨n, v⟩ := m
    by_cases same : name = n
    · simp [insertMember, same]
    · by_cases before : name < n <;> simp [insertMember, same, before, ih]

end Value

end PawnQuery.Json
