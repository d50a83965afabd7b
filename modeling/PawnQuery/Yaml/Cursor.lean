import PawnQuery.Yaml.Fault

/-!
# Cursors

A place in a text with its line and column, and the classes of characters that YAML tells apart.
The end of the text counts as the end of a line.
-/

namespace PawnQuery.Yaml

/-! ## Characters -/

def isAllowed (c : Char) : Bool :=
  let n := c.toNat
  n == 0x09 || n == 0x0A || n == 0x0D || (0x20 ≤ n && n ≤ 0x7E) || n == 0x85 ||
    (0xA0 ≤ n && n ≤ 0xD7FF) || (0xE000 ≤ n && n ≤ 0xFFFD) || 0x10000 ≤ n

def isByteOrderMark (c : Char) : Bool := c.toNat == 0xFEFF

def isBlank (c : Char) : Bool := c == ' ' || c == '\t'

def isBreak (c : Char) : Bool :=
  let n := c.toNat
  n == 0x0A || n == 0x0D || n == 0x85 || n == 0x2028 || n == 0x2029

def isName (c : Char) : Bool := c.isAlphanum || c == '_' || c == '-'

def isFlowIndicator (c : Char) : Bool :=
  c == ',' || c == '[' || c == ']' || c == '\x7b' || c == '\x7d'

/-- The text is at its end or begins with a character of a class. -/
def startsWith (p : Char → Bool) : List Char → Bool
  | [] => true
  | c :: _ => p c

def atBlankOrEnd (text : List Char) : Bool := startsWith (fun c => isBlank c || isBreak c) text

def atLineEnd (text : List Char) : Bool := startsWith isBreak text

/-- A mark of the document `mark` comes next: three of the character and nothing behind them. -/
def atMark (mark : Char) (text : List Char) : Bool :=
  match text with
  | a :: b :: c :: rest => a == mark && b == mark && c == mark && atBlankOrEnd rest
  | _ => false

/-! ## Places -/

structure Cursor where
  rest : List Char
  index : Nat := 0
  line : Nat := 0
  column : Nat := 0
deriving Repr, Inhabited

namespace Cursor

/-- Passes over a character that does not end a line. -/
def skip (c : Cursor) : Cursor :=
  match c.rest with
  | [] => c
  | _ :: rest => ⟨rest, c.index + 1, c.line, c.column + 1⟩

def skipMany (c : Cursor) : Nat → Cursor
  | 0 => c
  | n + 1 => c.skip.skipMany n

def skipWhile (p : Char → Bool) (c : Cursor) : Cursor :=
  c.skipMany (c.rest.takeWhile p).length

/-- Passes over a line break; gives what it reads as. -/
def readBreak (c : Cursor) : Cursor × List Char :=
  match c.rest with
  | '\r' :: '\n' :: rest => (⟨rest, c.index + 2, c.line + 1, 0⟩, ['\n'])
  | b :: rest =>
    if isBreak b then
      let n := b.toNat
      (⟨rest, c.index + 1, c.line + 1, 0⟩, if n == 0x2028 || n == 0x2029 then [b] else ['\n'])
    else (c, [])
  | [] => (c, [])

def atDocumentMark (c : Cursor) : Bool :=
  c.column == 0 && (atMark '-' c.rest || atMark '.' c.rest)

@[simp] theorem skip_nil (c : Cursor) (h : c.rest = []) : c.skip = c := by
  simp [skip, h]

end Cursor

end PawnQuery.Yaml
