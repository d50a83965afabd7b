import PawnQuery.Symbols.DiagnosticLog

/-!
# Styles

How parts of an answer are set off on a terminal, and whether they are.
-/

namespace PawnQuery.Output

inductive Style where
  | bold
  | dimmed
  | green
  | yellow
  | cyan
  | boldRed
  | boldCyan
deriving DecidableEq, Repr, Inhabited

def Style.code : Style → String
  | .bold => "1"
  | .dimmed => "2"
  | .green => "32"
  | .yellow => "33"
  | .cyan => "36"
  | .boldRed => "1;31"
  | .boldCyan => "1;36"

def resetSequence : List Char := ['\x1b', '[', '0', 'm']

def Style.sequence (s : Style) : List Char := ['\x1b', '['] ++ s.code.toList ++ ['m']

/-- The text with a style switched on again behind each place that switches all off. -/
def restyle (on : List Char) : List Char → List Char
  | '\x1b' :: '[' :: '0' :: 'm' :: rest => resetSequence ++ on ++ restyle on rest
  | c :: rest => c :: restyle on rest
  | [] => []

def Style.apply (s : Style) (text : String) : String :=
  String.ofList (s.sequence ++ restyle s.sequence text.toList ++ resetSequence)

structure Screen where
  width : Nat := 80
  colors : Bool := false
deriving DecidableEq, Repr, Inhabited

def Screen.paint (screen : Screen) (s : Style) (text : String) : String :=
  if screen.colors then s.apply text else text

structure ColorWish where
  /-- `NO_COLOR`: any value, even an empty one, forbids colors. -/
  noColor : Option String := none
  /-- `PAWN_PARSER_COLOR`: a zero or the word false forbids colors. -/
  ownColor : Option String := none

def ColorWish.wanted (w : ColorWish) : Bool :=
  w.noColor.isNone && !w.ownColor.any fun v => v == "0" || Symbols.lowerText v == "false"

@[simp] theorem paint_of_not_colors {screen : Screen} (h : screen.colors = false) (s : Style)
    (text : String) : screen.paint s text = text := by
  simp [Screen.paint, h]

end PawnQuery.Output
