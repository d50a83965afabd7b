import PawnQuery.Text.LineBreak
import PawnQuery.Text.Property.Alphanumeric
import PawnQuery.Text.Width

/-!
# Words

What a line is made of when it is wrapped.  A word owns the spaces behind it.  Words are cut from a
line where it may be broken, but not behind hyphens; inside a word a hyphen between letters or
digits is a place of its own to cut at, and a word too wide for any line is cut anywhere.
-/

namespace PawnQuery.Text.Wrap

structure Word where
  text : List Char := []
  width : Nat := 0
  spaces : Nat := 0
deriving DecidableEq, Repr, Inhabited

namespace Word

def softHyphen : Char := Char.ofNat 0xAD

def isHyphen (c : Char) : Bool := c == '-' || c == softHyphen

def ofPiece (piece : List Char) : Word :=
  let spaces := (piece.reverse.takeWhile (· == ' ')).length
  let text := piece.take (piece.length - spaces)
  ⟨text, displayWidth text, spaces⟩

/-! ## From a line -/

/-- A line that is being cut: the pieces and the piece under way, both with the latest first.
Control sequences go with the character behind them. -/
structure Cut where
  pieces : List (List Char) := []
  current : List Char := []
  pending : List Char := []

def Cut.take : Cut → List Bool → List Glyph → Cut
  | cut, _, [] => cut
  | cut, breaks, .control s :: rest => take { cut with pending := s.reverse ++ cut.pending } breaks rest
  | cut, breaks, .shown c :: rest =>
    let joined := c :: cut.pending
    let next : Cut :=
      if breaks.headD false then
        { pieces := cut.current :: cut.pieces, current := joined }
      else { pieces := cut.pieces, current := joined ++ cut.current }
    take next (breaks.drop 1) rest

def Cut.finish (cut : Cut) : List (List Char) :=
  let last := cut.pending ++ cut.current
  let all := if last.isEmpty then cut.pieces else last :: cut.pieces
  (all.map List.reverse).reverse

/-- The places before characters at which a line is cut: where it may be broken and no hyphen
stands before. -/
def cutsBefore (line : List Char) : List Bool :=
  let before := none :: line.map some
  ((breaksBefore {} line).zip before).map fun (allowed, c) => allowed && !c.any isHyphen

def dropLastTrue (l : List Bool) : List Bool :=
  let rest := (l.reverse.dropWhile (! ·))
  (List.replicate (l.length - rest.length) false ++
    (match rest with
     | [] => []
     | _ :: more => false :: more)).reverse

/-- The words of a line.  Behind a final hyphen there is no place to break at, and the last place
before it does not count either. -/
def ofLine (line : List Char) : List Word :=
  let parts := glyphs line
  let shown := parts.filterMap Glyph.shown?
  let cuts := cutsBefore shown
  let counted := if shown.getLast?.any isHyphen then dropLastTrue cuts else cuts
  (Cut.take {} counted parts).finish.map ofPiece

/-! ## Inside words -/

def isAlphanumeric? (c : Option Char) : Bool := c.any alphanumeric.contains

/-- The pieces of a word between hyphens that stand between letters or digits; `before` is the
character before, and the piece under way has the latest first. -/
def hyphenPieces : Option Char → List Char → List Char → List (List Char)
  | _, current, [] => [current.reverse]
  | before, current, c :: rest =>
    if c == '-' && isAlphanumeric? before && isAlphanumeric? rest.head? then
      (c :: current).reverse :: hyphenPieces (some c) [] rest
    else hyphenPieces (some c) (c :: current) rest

/-- Pieces as words, of which the last owns the spaces. -/
def withSpaces (spaces : Nat) : List (List Char) → List Word
  | [] => []
  | [piece] => [⟨piece, displayWidth piece, spaces⟩]
  | piece :: rest => ⟨piece, displayWidth piece, 0⟩ :: withSpaces spaces rest

def splitHyphens (w : Word) : List Word := withSpaces w.spaces (hyphenPieces none [] w.text)

/-- The pieces of a text that are at most `limit` columns wide, apart from single characters; the
piece under way has the latest first. -/
def narrowPieces (limit : Nat) : (width : Nat) → List Char → List Glyph → List (List Char)
  | _, current, [] => if current.isEmpty then [] else [current.reverse]
  | width, current, .control s :: rest => narrowPieces limit width (s.reverse ++ current) rest
  | width, current, .shown c :: rest =>
    if 0 < width ∧ limit < width + charWidth c then
      current.reverse :: narrowPieces limit (charWidth c) [c] rest
    else narrowPieces limit (width + charWidth c) (c :: current) rest

def narrow (limit : Nat) (w : Word) : List Word :=
  if limit < w.width then withSpaces w.spaces (narrowPieces limit 0 [] (glyphs w.text)) else [w]

end Word

end PawnQuery.Text.Wrap
