import PawnQuery.Text.Wrap.Word

/-!
# Choosing line ends

Words are put on lines so that the total cost of the lines is as small as possible.  A line costs
something in itself; a line too wide costs much for each column; any other line but the last costs
the square of its gap; a last line of one short word costs a little.  Of choices that cost the same
the one whose line begins earlier wins.
-/

namespace PawnQuery.Text.Wrap

structure Costs where
  line : Nat := 1000
  overflow : Nat := 2500
  /-- A last line of one word narrower than a line divided by `shortFraction`. -/
  shortLast : Nat := 25
  shortFraction : Nat := 4

structure LineWidths where
  first : Nat
  others : Nat

def LineWidths.target (w : LineWidths) (start : Nat) : Nat :=
  max 1 (if start = 0 then w.first else w.others)

/-- The cost of the line of words `start` up to `stop`, out of `count` words; `width` is its
width. -/
def lineCost (costs : Costs) (widths : LineWidths) (count start stop width : Nat) : Nat :=
  let target := widths.target start
  let gap := target - width
  costs.line +
    if target < width then (width - target) * costs.overflow
    else if stop < count then gap * gap
    else if start + 1 = stop ∧ width * costs.shortFraction < target then costs.shortLast
    else 0

/-- The best way to end a line before a word: where the line begins, and what it costs up to
there. -/
structure Choice where
  start : Nat
  cost : Nat
deriving DecidableEq, Repr, Inhabited

/-- The better of two choices, the earlier one if they cost the same. -/
def Choice.better (a b : Choice) : Choice := if b.cost < a.cost then b else a

def offsets (words : List Word) : Array Nat :=
  (words.foldl
    (fun (acc : Array Nat × Nat) w =>
      let after := acc.2 + w.width + w.spaces
      (acc.1.push after, after))
    (#[0], 0)).1

/-- The best line that ends before word `stop`, given the best ones before; the lines beginning
before `start` have been compared. -/
def bestLine (cost : Nat → Nat) (best : Choice) (start : Nat) : (left : Nat) → Choice
  | 0 => best
  | left + 1 => bestLine cost (best.better ⟨start, cost start⟩) (start + 1) left

/-- The best choices before each word and at the end; the first of them ends no line. -/
def choices (costs : Costs) (widths : LineWidths) (words : Array Word) : Array Choice :=
  let ends := offsets words.toList
  let step (best : Array Choice) (index : Nat) : Array Choice :=
    let stop := index + 1
    let reach := ends.getD stop 0 - (words.getD index {}).spaces
    let cost (start : Nat) : Nat :=
      (best.getD start default).cost +
        lineCost costs widths words.size start stop (reach - ends.getD start 0)
    best.push (bestLine cost ⟨0, cost 0⟩ 1 index)
  (List.range words.size).foldl step #[⟨0, 0⟩]

/-- The lines that end before word `stop`, the last of them first. -/
def linesBefore (best : Array Choice) (words : List Word) : (fuel stop : Nat) → List (List Word)
  | 0, _ => []
  | fuel + 1, stop =>
    let start := (best.getD stop default).start
    let line := (words.take stop).drop start
    if start = 0 then [line] else line :: linesBefore best words fuel start

def fit (costs : Costs) (widths : LineWidths) (words : List Word) : List (List Word) :=
  let best := choices costs widths words.toArray
  (linesBefore best words words.length.succ words.length).reverse

end PawnQuery.Text.Wrap
