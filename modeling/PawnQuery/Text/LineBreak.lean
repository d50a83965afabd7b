import PawnQuery.Text.Property.LineBreak

/-!
# Where lines may be broken

Whether a line may be broken between two characters follows from their classes and from what
stands before.  The rules are tried in order and the first that fits decides; where none fits a
line may be broken.
-/

namespace PawnQuery.Text

/-- What stands before a place between two characters, as far as it matters. -/
structure BreakContext where
  /-- The class of the last character that is neither a space nor joined to another one; none at
  the beginning. -/
  last : Option BreakClass := none
  spaces : Bool := false
  joiner : Bool := false
  /-- The last character is a hyphen or the like behind a Hebrew letter. -/
  hebrewHyphen : Bool := false
  /-- An odd number of halves of flags stands right before the place. -/
  oddRegional : Bool := false
deriving DecidableEq, Repr

namespace BreakClass

/-- A character after which a line ends, or one that ends a word without joining others. -/
def standsAlone : BreakClass → Bool
  | .mandatory | .carriageReturn | .lineFeed | .nextLine | .space | .zeroWidthSpace => true
  | _ => false

def isLetter : BreakClass → Bool
  | .alphabetic | .hebrew => true
  | _ => false

def isPicture : BreakClass → Bool
  | .ideographic | .emojiBase | .emojiModifier | .reservedPictograph => true
  | _ => false

def isHangul : BreakClass → Bool
  | .leadingJamo | .vowelJamo | .trailingJamo | .openSyllable | .closedSyllable => true
  | _ => false

def isOpening : BreakClass → Bool
  | .opening | .wideOpening => true
  | _ => false

def joinsInNumber : BreakClass → BreakClass → Bool
  | .closing, .unitAfter | .closing, .unitBefore => true
  | .parenthesis, .unitAfter | .parenthesis, .unitBefore => true
  | .numeric, .unitAfter | .numeric, .unitBefore => true
  | .unitAfter, .opening | .unitAfter, .wideOpening | .unitAfter, .numeric => true
  | .unitBefore, .opening | .unitBefore, .wideOpening | .unitBefore, .numeric => true
  | .hyphen, .numeric | .separator, .numeric | .numeric, .numeric | .symbol, .numeric => true
  | _, _ => false

def joinsInSyllable : BreakClass → BreakClass → Bool
  | .leadingJamo, .leadingJamo | .leadingJamo, .vowelJamo => true
  | .leadingJamo, .openSyllable | .leadingJamo, .closedSyllable => true
  | .vowelJamo, .vowelJamo | .vowelJamo, .trailingJamo => true
  | .openSyllable, .vowelJamo | .openSyllable, .trailingJamo => true
  | .trailingJamo, .trailingJamo | .closedSyllable, .trailingJamo => true
  | _, _ => false

def joined (a b : BreakClass) : Bool :=
  b == .quotation || a == .quotation ||
    -- an object of its own stands apart
    (a != .contingent && b != .contingent &&
      (b == .after || b == .hyphen || b == .nonStarter || a == .before ||
        (a == .symbol && b == .hebrew) || b == .inseparable ||
        (a.isLetter && b == .numeric) || (a == .numeric && b.isLetter) ||
        (a == .unitBefore && b.isPicture) || (a.isPicture && b == .unitAfter) ||
        ((a == .unitBefore || a == .unitAfter) && b.isLetter) ||
        (a.isLetter && (b == .unitBefore || b == .unitAfter)) ||
        joinsInNumber a b || joinsInSyllable a b || (a.isHangul && b == .unitAfter) ||
        (a == .unitBefore && b.isHangul) || (a.isLetter && b.isLetter) ||
        (a == .separator && b.isLetter) || ((a.isLetter || a == .numeric) && b == .opening) ||
        (a == .parenthesis && (b.isLetter || b == .numeric)) ||
        ((a == .emojiBase || a == .reservedPictograph) && b == .emojiModifier)))

end BreakClass

namespace BreakContext

def absorbs (x : BreakContext) (c : BreakClass) : Bool :=
  (c == .combining || c == .joiner) && !x.spaces && x.last.any fun a => !a.standsAlone

/-- No line is broken before such a character, even behind spaces. -/
def clings (c : BreakClass) : Bool :=
  c == .wordJoiner || [.closing, .parenthesis, .exclamation, .separator, .symbol].contains c

def allowsBefore (x : BreakContext) (c : BreakClass) : Bool :=
  match x.last with
  | none => x.spaces && c != .space && c != .zeroWidthSpace && !endsLine c && !clings c
  | some a =>
    if a == .mandatory || a == .lineFeed || a == .nextLine then true
    else if a == .carriageReturn then c != .lineFeed
    else if endsLine c || c == .space || c == .zeroWidthSpace then false
    else if a == .zeroWidthSpace then true
    else if x.joiner then false
    else if (a == .wordJoiner || a == .glue) && !x.spaces then false
    else if c == .glue && !x.spaces && a != .after && a != .hyphen then false
    else if clings c then false
    else if a.isOpening then false
    else if a == .quotation && c.isOpening then false
    else if (a == .closing || a == .parenthesis) && c == .nonStarter then false
    else if a == .both && c == .both then false
    else if x.spaces then true
    else if x.hebrewHyphen && c != .contingent then false
    else if a == .regional && c == .regional then !x.oddRegional
    else !BreakClass.joined a c
where
  endsLine (c : BreakClass) : Bool :=
    c == .mandatory || c == .carriageReturn || c == .lineFeed || c == .nextLine

def allows (x : BreakContext) (c : BreakClass) : Bool :=
  if x.absorbs c then false
  else x.allowsBefore (if c == .combining || c == .joiner then .alphabetic else c)

def push (x : BreakContext) (c : BreakClass) : BreakContext :=
  let joiner := c == .joiner
  if x.absorbs c then { x with joiner := joiner }
  else if c == .space then { x with spaces := true, joiner := false }
  else
    let kept := if c == .combining || joiner then BreakClass.alphabetic else c
    { last := some kept
      joiner := joiner
      hebrewHyphen := !x.spaces && x.last == some .hebrew && (kept == .hyphen || kept == .after)
      oddRegional := kept == .regional && !(x.oddRegional && !x.spaces && x.last == some .regional) }

end BreakContext

/-- For each character of a text whether a line may be broken before it. -/
def breaksBefore : BreakContext → List Char → List Bool
  | _, [] => []
  | x, c :: rest =>
    let b := BreakClass.ofChar c
    x.allows b :: breaksBefore (x.push b) rest

@[simp] theorem length_breaksBefore (x : BreakContext) (text : List Char) :
    (breaksBefore x text).length = text.length := by
  induction text generalizing x with
  | nil => rfl
  | cons c rest ih => simp [breaksBefore, ih]

end PawnQuery.Text
