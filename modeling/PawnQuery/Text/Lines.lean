/-!
# Lines of a text

A line feed ends a line; what follows the last line feed is a line too unless it is empty.
Carriage returns at the end of a line are no part of it.  The text is read once, left to right.
-/

namespace PawnQuery.Text

structure LineCut where
  /-- The finished lines, the latest first. -/
  finished : List (List Char) := []
  /-- The characters of the line under way, the latest first. -/
  current : List Char := []
deriving DecidableEq, Repr

namespace LineCut

def push (cut : LineCut) (c : Char) : LineCut :=
  if c = '\n' then ⟨cut.current.reverse :: cut.finished, []⟩
  else ⟨cut.finished, c :: cut.current⟩

def finish (cut : LineCut) : List (List Char) :=
  match cut.current with
  | [] => cut.finished.reverse
  | current => (current.reverse :: cut.finished).reverse

@[simp] theorem push_newline (cut : LineCut) :
    cut.push '\n' = ⟨cut.current.reverse :: cut.finished, []⟩ := rfl

end LineCut

def rawLines (text : List Char) : List (List Char) :=
  (text.foldl LineCut.push {}).finish

def dropReturns (line : List Char) : List Char :=
  (line.reverse.dropWhile (· == '\r')).reverse

/-- The lines of `text`, without line ends of either convention. -/
def lines (text : List Char) : List (List Char) :=
  (rawLines text).map dropReturns

@[simp] theorem rawLines_nil : rawLines [] = [] := rfl

@[simp] theorem lines_nil : lines [] = [] := rfl

end PawnQuery.Text
