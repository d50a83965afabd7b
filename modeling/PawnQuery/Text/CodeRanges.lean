/-!
# Sets of characters given by ranges

A property of characters is stored as text: ranges of code points in hexadecimal, in ascending
order.  Membership is a binary search over the ranges.
-/

namespace PawnQuery.Text

def hexNumber (digits : List Char) : Nat :=
  digits.foldl
    (fun n c =>
      let d := c.toNat
      n * 16 + (if d ≤ 0x39 then d - 0x30 else d - 0x57))
    0

/-- A range from its text, `first-last` or one code point. -/
def codeRange (text : String) : Nat × Nat :=
  let (first, rest) := text.toList.span (· != '-')
  let low := hexNumber first
  match rest with
  | [] => (low, low)
  | _ :: last => (low, hexNumber last)

structure CodeRanges where
  ranges : Array (Nat × Nat)
deriving Repr, Inhabited

namespace CodeRanges

def ofText (rows : List String) : CodeRanges :=
  ⟨(rows.flatMap fun row => (row.splitOn " ").map codeRange).toArray⟩

/-- Whether `n` is in one of the ranges between `low` and `high`, by halving `fuel` times. -/
def search (ranges : Array (Nat × Nat)) (n : Nat) : Nat → Nat → Nat → Bool
  | 0, _, _ => false
  | fuel + 1, low, high =>
    if high ≤ low then false
    else
      let middle := (low + high) / 2
      match ranges[middle]? with
      | none => false
      | some (first, last) =>
        if n < first then search ranges n fuel low middle
        else if last < n then search ranges n fuel (middle + 1) high
        else true

def contains (set : CodeRanges) (c : Char) : Bool :=
  search set.ranges c.toNat (set.ranges.size.log2 + 2) 0 set.ranges.size

end CodeRanges

end PawnQuery.Text
