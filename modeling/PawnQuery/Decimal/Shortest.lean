import PawnQuery.Decimal.Binary64

/-!
# Shortest decimals

A finite binary number is written with the fewest decimal digits that still single it out: no
shorter decimal lies among the reals that round to it, and of the shortest ones the nearest is
taken.  The layout record says when the digits are written out in full and when they take an
exponent.
-/

namespace PawnQuery.Decimal

/-- Decimal digits `digits`, the first worth `10 ^ power`. -/
structure Digits where
  digits : List Nat
  power : Int
deriving DecidableEq, Repr

structure Layout where
  leastPositional : Int
  greatestPositional : Int
  exponentMark : Char
deriving DecidableEq, Repr

def digitsOf (n : Nat) : List Nat :=
  (Nat.toDigits 10 n).map fun c => c.toNat - '0'.toNat

def dropTrailingZeros (digits : List Nat) : List Nat :=
  (digits.reverse.dropWhile (· == 0)).reverse

/-- `10 ^ p ≤ num / den`. -/
def reaches (num den : Nat) (p : Int) : Bool :=
  if 0 ≤ p then Nat.pow 10 p.toNat * den ≤ num else den ≤ num * Nat.pow 10 (-p).toNat

/-- The greatest `p` with `10 ^ p ≤ num / den`, found from an estimate off by at most three. -/
def leadingPower (num den : Nat) : Int :=
  let guess : Int := ((num.log2 : Int) - (den.log2 : Int)) * 30103 / 100000
  if reaches num den (guess + 2) then guess + 2
  else if reaches num den (guess + 1) then guess + 1
  else if reaches num den guess then guess
  else if reaches num den (guess - 1) then guess - 1
  else guess - 2

/-- The reals that round to a number, as four fractions over one denominator: the lower end, the
number, the upper end, and whether the ends belong. -/
structure Interval where
  lower : Nat
  value : Nat
  upper : Nat
  den : Nat
  closed : Bool
deriving DecidableEq, Repr

def Binary64.interval (x : Binary64) : Interval :=
  let quarter := x.exponent - 2
  let up := 4 * x.mantissa + 2
  let down :=
    if x.mantissa = Binary64.leastFull ∧ Binary64.leastExponent < x.exponent then 4 * x.mantissa - 1
    else 4 * x.mantissa - 2
  let unit := scaled 1 1 quarter
  ⟨down * unit.1, 4 * x.mantissa * unit.1, up * unit.1, unit.2, x.mantissa % 2 == 0⟩

def Interval.contains (i : Interval) (n : Nat) (p : Int) : Bool :=
  let (num, den) := if 0 ≤ p then (n * Nat.pow 10 p.toNat, 1) else (n, Nat.pow 10 (-p).toNat)
  let point := num * i.den
  if i.closed then i.lower * den ≤ point && point ≤ i.upper * den
  else i.lower * den < point && point < i.upper * den

/-- The multiple of `10 ^ p` nearest to the number that lies in the interval, if one does.  The
even one is taken when two are equally near. -/
def Interval.onGrid? (i : Interval) (p : Int) : Option Nat :=
  let (num, den) :=
    if 0 ≤ p then (i.value, i.den * Nat.pow 10 p.toNat)
    else (i.value * Nat.pow 10 (-p).toNat, i.den)
  let below := num / den
  let above := below + 1
  let nearest := roundQuotient num den
  let other := if nearest = below then above else below
  if i.contains nearest p then some nearest
  else if i.contains other p then some other
  else none

/-- The first grid, from coarse to fine, that has a point in the interval. -/
def Interval.shortest (i : Interval) (power : Int) : Nat → Nat → Nat × Int
  | _, 0 => (i.value, 0)
  | done, more + 1 =>
    let p := power - done
    match i.onGrid? p with
    | some n => if n = 0 then i.shortest power (done + 1) more else (n, p)
    | none => i.shortest power (done + 1) more

def Binary64.shortest (x : Binary64) : Digits :=
  let i := x.interval
  let (n, p) := i.shortest (leadingPower i.value i.den) 0 18
  let ds := digitsOf n
  ⟨dropTrailingZeros ds, p + (ds.length - 1 : Nat)⟩

def digitText (digits : List Nat) : String :=
  String.ofList (digits.map fun d => Char.ofNat ('0'.toNat + d))

/-- Digits laid out with a fraction of at least one digit, or with an exponent that shows its
sign. -/
def Layout.render (layout : Layout) (d : Digits) : String :=
  let count := d.digits.length
  if layout.leastPositional ≤ d.power ∧ d.power ≤ layout.greatestPositional then
    if 0 ≤ d.power then
      let whole := d.power.toNat + 1
      let padded := d.digits ++ List.replicate (whole - count) 0
      let fraction := padded.drop whole
      digitText (padded.take whole) ++ "." ++
        (if fraction.isEmpty then "0" else digitText fraction)
    else
      "0." ++ digitText (List.replicate ((-d.power).toNat - 1) 0 ++ d.digits)
  else
    let fraction := d.digits.drop 1
    digitText (d.digits.take 1) ++ (if fraction.isEmpty then "" else "." ++ digitText fraction) ++
      layout.exponentMark.toString ++ (if d.power < 0 then "-" else "+") ++
      toString d.power.natAbs

def Binary64.text (layout : Layout) (x : Binary64) : String :=
  (if x.negative then "-" else "") ++
    (if x.isZero then "0.0" else layout.render x.shortest)

end PawnQuery.Decimal
