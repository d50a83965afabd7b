import PawnQuery.Text.Wrap.Fit

/-!
# Wrapping

A text is cut into pieces at its line feeds, and each piece is wrapped on its own.  The very first
line has an indent of its own.
-/

namespace PawnQuery.Text.Wrap

structure Layout where
  width : Nat
  firstIndent : String := ""
  indent : String := ""
  costs : Costs := {}

namespace Layout

def widths (l : Layout) : LineWidths :=
  ⟨l.width - displayWidth l.firstIndent.toList, l.width - displayWidth l.indent.toList⟩

end Layout

/-- The text of a line without the spaces behind its last word. -/
def lineText : List Word → List Char
  | [] => []
  | [w] => w.text
  | w :: rest => w.text ++ List.replicate w.spaces ' ' ++ lineText rest

def trimSpaces (text : List Char) : List Char :=
  (text.reverse.dropWhile (· == ' ')).reverse

/-- A piece of a text wrapped; `first` says that no line stands before. -/
def wrapPiece (l : Layout) (first : Bool) (piece : List Char) : List String :=
  let indent := if first then l.firstIndent else l.indent
  if indent.isEmpty ∧ (String.ofList piece).utf8ByteSize < l.width then
    [String.ofList (trimSpaces piece)]
  else
    let words := (Word.ofLine piece).flatMap Word.splitHyphens
    let narrow := words.flatMap (Word.narrow l.widths.others)
    -- a first line may be left empty if its indent makes it too narrow
    let placed := if l.firstIndent.isEmpty then narrow else {} :: narrow
    (fit l.costs l.widths placed).zipIdx.map fun (line, index) =>
      if line.isEmpty then ""
      else (if first ∧ index = 0 then l.firstIndent else l.indent) ++ String.ofList (lineText line)

def textPieces : List Char → List (List Char)
  | [] => [[]]
  | c :: rest =>
    if c = '\n' then [] :: textPieces rest
    else
      match textPieces rest with
      | [] => [[c]]
      | piece :: more => (c :: piece) :: more

def wrap (l : Layout) (text : String) : List String :=
  match textPieces text.toList with
  | [] => []
  | piece :: more => wrapPiece l true piece ++ more.flatMap (wrapPiece l false)

end PawnQuery.Text.Wrap
