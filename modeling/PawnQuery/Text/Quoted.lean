import PawnQuery.Text.Property.Printable

/-!
# Quoted text

A text between double quotes, with everything that cannot be shown written as an escape: the
common controls by a letter, all else by its code point.
-/

namespace PawnQuery.Text

/-- Which quotes are escaped inside a quoted text. -/
structure Quoting where
  singleQuote : Bool
deriving DecidableEq, Repr

namespace Quoting

def plain : Quoting := ⟨false⟩

def strict : Quoting := ⟨true⟩

def byCodePoint (c : Char) : List Char :=
  "\\u\x7b".toList ++ Nat.toDigits 16 c.toNat ++ "\x7d".toList

def escape (quoting : Quoting) (c : Char) : List Char :=
  if c = '\x00' then ['\\', '0']
  else if c = '\t' then ['\\', 't']
  else if c = '\n' then ['\\', 'n']
  else if c = '\r' then ['\\', 'r']
  else if c = '\\' then ['\\', '\\']
  else if c = '"' then ['\\', '"']
  else if c = '\x27' && quoting.singleQuote then ['\\', '\x27']
  else if graphemeExtend.contains c || unprintable.contains c then byCodePoint c
  else [c]

def quote (quoting : Quoting) (text : String) : String :=
  String.ofList ('"' :: text.toList.flatMap quoting.escape ++ ['"'])

end Quoting

end PawnQuery.Text
