import PawnQuery.Decimal.Binary64

/-!
# Reading decimals

A decimal is read in at most three roundings: its digits as one integer, then a power of ten that
multiplies or divides it, the latter in two steps when the power is beyond the range of the
format.  What is left over is not always the nearest number, but it is always the same one.
-/

namespace PawnQuery.Decimal

def greatestPower : Nat := 308

def powerOfTen (k : Nat) : Option Binary64 := Binary64.ofNat (Nat.pow 10 k)

/-- `x / 10 ^ k`, in steps that stay within the range of the format. -/
def divideByPower (x : Binary64) (k : Nat) : Option Binary64 :=
  if k ≤ greatestPower then do x.div (← powerOfTen k)
  else if k ≤ 2 * greatestPower then do
    (← x.div (← powerOfTen greatestPower)).div (← powerOfTen (k - greatestPower))
  else some (Binary64.zero x.negative)

def multiplyByPower (x : Binary64) (k : Nat) : Option Binary64 :=
  if x.isZero then some x
  else if k ≤ greatestPower then do x.mul (← powerOfTen k)
  else none

/-- The number written with these digits and this power of ten, none if it is out of range. -/
def Binary64.ofDecimal (negative : Bool) (digits : Nat) (power : Int) : Option Binary64 := do
  let x ← Binary64.ofNat digits
  let y ← if 0 ≤ power then multiplyByPower x power.toNat else divideByPower x (-power).toNat
  return y.withSign negative

end PawnQuery.Decimal
