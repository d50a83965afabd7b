import PawnQuery.Proofs.Json.Members
import PawnQuery.Proofs.Json.Reader

/-!
# The values that are read

Integers that are read fit 64 bits, objects that are read have their members in order, and lists and
objects nest no deeper than allowed.  These are all the values that a text can denote.
-/

namespace PawnQuery.Json

/-! ## Integers -/

/-- An integer fits 64 bits, with a sign if it is negative. -/
def Number.InRange : Number → Prop
  | .int i => -(greatestMagnitude : Int) ≤ i ∧ i ≤ greatestInteger
  | .real _ => True

section

variable {negative : Bool} {s : Significand} {text rest : List Char} {n : Number}

theorem isReal_makeReal {power : Int} (reads : makeReal negative s power text = .ok (n, rest)) :
    ∃ x, n = .real x := by
  unfold makeReal at reads
  split at reads
  next x _ =>
    cases reads
    exact ⟨x, rfl⟩
  next => cases reads

theorem isReal_readExponent (reads : readExponent negative s text = .ok (n, rest)) :
    ∃ x, n = .real x := by
  unfold readExponent at reads
  dsimp only at reads
  split at reads
  next => cases reads
  next =>
    split at reads
    next => cases reads
    next =>
      split at reads
      next => exact isReal_makeReal reads
      next =>
        split at reads
        all_goals
          split at reads
          next => cases reads
          next =>
            cases reads
            exact ⟨_, rfl⟩

theorem isReal_readAfterFraction (reads : readAfterFraction negative s text = .ok (n, rest)) :
    ∃ x, n = .real x := by
  unfold readAfterFraction at reads
  split at reads
  next => exact isReal_readExponent reads
  next => exact isReal_readExponent reads
  next => exact isReal_makeReal reads

theorem isReal_readPoint (reads : readPoint negative s text = .ok (n, rest)) :
    ∃ x, n = .real x := by
  unfold readPoint at reads
  split at reads
  next => cases reads
  next =>
    split at reads
    next => cases reads
    next => exact isReal_readAfterFraction reads

theorem inRange_of_isReal (isReal : ∃ x, n = .real x) : n.InRange := by
  obtain ⟨x, rfl⟩ := isReal
  trivial

/-- Digits that would not fit are dropped. -/
theorem digits_pushWhole (small : s.digits ≤ greatestInteger) (d : Nat) :
    (s.pushWhole d).digits ≤ greatestInteger := by
  unfold Significand.pushWhole
  split
  next => exact small
  next fits =>
    simp only [Bool.or_eq_true, decide_eq_true_eq, not_or, not_lt] at fits
    exact fits.2

theorem digits_readWhole (small : s.digits ≤ greatestInteger) :
    (readWhole s text).1.digits ≤ greatestInteger := by
  induction text generalizing s with
  | nil => exact small
  | cons c text inductionHypothesis =>
    rw [readWhole]
    split
    next d _ => exact inductionHypothesis (digits_pushWhole small d)
    next => exact small

theorem inRange_makeInteger (small : s.digits ≤ greatestInteger)
    (reads : makeInteger negative s text = .ok (n, rest)) : n.InRange := by
  unfold makeInteger at reads
  split at reads
  next => exact inRange_of_isReal (isReal_makeReal reads)
  next =>
    split at reads
    next =>
      cases reads
      simp only [Number.InRange]
      omega
    next =>
      split at reads
      next fits =>
        cases reads
        simp only [Number.InRange]
        omega
      next => exact inRange_of_isReal (isReal_makeReal reads)

theorem inRange_readAfterWhole (small : s.digits ≤ greatestInteger)
    (reads : readAfterWhole negative s text = .ok (n, rest)) : n.InRange := by
  unfold readAfterWhole at reads
  split at reads
  next => exact inRange_of_isReal (isReal_readPoint reads)
  next => exact inRange_of_isReal (isReal_readExponent reads)
  next => exact inRange_of_isReal (isReal_readExponent reads)
  next => exact inRange_makeInteger small reads

theorem decimalDigit?_le {c : Char} {d : Nat} (digit : decimalDigit? c = some d) : d ≤ 9 := by
  unfold decimalDigit? at digit
  split at digit
  next range =>
    cases digit
    have upper : c.toNat ≤ '9'.toNat := range.2
    have nine : '9'.toNat = 0x39 := rfl
    omega
  next => cases digit

theorem inRange_readNumber (reads : readNumber negative text = .ok (n, rest)) : n.InRange := by
  unfold readNumber at reads
  split at reads
  next => cases reads
  next =>
    have small : (⟨0, 0, false⟩ : Significand).digits ≤ greatestInteger := Nat.zero_le _
    split at reads
    next =>
      split at reads
      next => cases reads
      next => exact inRange_readAfterWhole small reads
    next => exact inRange_readAfterWhole small reads
  next c behind _ =>
    split at reads
    next d digit =>
      have small : (⟨d, 0, false⟩ : Significand).digits ≤ greatestInteger :=
        Nat.le_trans (decimalDigit?_le digit) (by decide)
      exact inRange_readAfterWhole (digits_readWhole small) reads
    next => cases reads

end

/-! ## Values -/

/-- A value that can be read where lists and objects may nest `depth` deep. -/
inductive Orderly : (depth : Nat) → Value → Prop where
  | null {depth : Nat} : Orderly depth .null
  | bool {depth : Nat} {b : Bool} : Orderly depth (.bool b)
  | number {depth : Nat} {n : Number} (inRange : n.InRange) : Orderly depth (.number n)
  | string {depth : Nat} {s : String} : Orderly depth (.string s)
  | array {depth : Nat} {items : List Value} (inside : ∀ v ∈ items, Orderly depth v) :
      Orderly (depth + 1) (.array items)
  | object {depth : Nat} {members : List Member} (ascending : Value.Ascending members)
      (inside : ∀ m ∈ members, Orderly depth m.2) : Orderly (depth + 1) (.object members)

theorem Orderly.ascending {depth : Nat} {v : Value} (orderly : Orderly depth v)
    (members : List Member) (equal : v = .object members) : Value.Ascending members := by
  subst equal
  cases orderly with
  | object ascending inside => exact ascending

theorem Orderly.items {depth : Nat} {items : List Value} (orderly : Orderly depth (.array items)) :
    ∃ inner, depth = inner + 1 ∧ ∀ v ∈ items, Orderly inner v := by
  cases orderly with
  | array inside => exact ⟨_, rfl, inside⟩

mutual

/-- A text denotes no other values. -/
theorem Denotes.orderly {depth : Nat} {d : Document} {v : Value} :
    Denotes depth d v → Orderly depth v
  | .null => .null
  | .bool => .bool
  | .positive reads | .negative reads => .number (inRange_readNumber reads)
  | .string _ => .string
  | .array inside => .array inside.orderly
  | .object inside =>
    have orderly := inside.orderly Value.ascending_nil (by simp)
    .object orderly.1 orderly.2

theorem DenotesItems.orderly {depth : Nat} {items : List Document} {values : List Value} :
    DenotesItems depth items values → ∀ v ∈ values, Orderly depth v
  | .nil => by simp
  | .cons item others => List.forall_mem_cons.mpr ⟨item.orderly, others.orderly⟩

theorem DenotesMembers.orderly {depth : Nat} {done values : List Member}
    {members : List (List Char × Document)} (ascending : Value.Ascending done)
    (inside : ∀ m ∈ done, Orderly depth m.2) :
    DenotesMembers depth done members values →
      Value.Ascending values ∧ ∀ m ∈ values, Orderly depth m.2
  | .nil => ⟨ascending, inside⟩
  | .cons spells value others => by
    refine others.orderly (Value.ascending_insertMember ascending _ _) fun m listed => ?_
    obtain rfl | listed := Value.mem_insertMember listed
    · exact value.orderly
    · exact inside m listed

end

end PawnQuery.Json
