import PawnQuery.Json.Fault

/-!
# Writing JSON documents

A document is written either on one line without blanks or with one item or member a line.  In
strings only the two characters that would end or distort them and the controls are escaped.
-/

namespace PawnQuery.Json

def hexChar (n : Nat) : Char :=
  if n < 10 then Char.ofNat (0x30 + n) else Char.ofNat (0x57 + n)

def escapeChar (c : Char) : List Char :=
  if c = '"' then ['\\', '"']
  else if c = '\\' then ['\\', '\\']
  else if 0x20 ≤ c.toNat then [c]
  else if c = '\x08' then ['\\', 'b']
  else if c = '\t' then ['\\', 't']
  else if c = '\n' then ['\\', 'n']
  else if c = '\x0c' then ['\\', 'f']
  else if c = '\r' then ['\\', 'r']
  else ['\\', 'u', '0', '0', hexChar (c.toNat / 16), hexChar (c.toNat % 16)]

def renderString (s : String) : List Char :=
  '"' :: s.toList.flatMap escapeChar ++ ['"']

/-- A number: integers as they are, fractions by their shortest decimal. -/
def Number.text : Number → String
  | .int value => toString value
  | .real value => value.text numberLayout

namespace Value

/-! ## On one line -/

mutual

def renderChars : Value → List Char
  | .null => "null".toList
  | .bool true => "true".toList
  | .bool false => "false".toList
  | .number n => n.text.toList
  | .string s => renderString s
  | .array items => '[' :: renderItems items
  | .object members => '\x7b' :: renderMembers members

def renderItems : List Value → List Char
  | [] => [']']
  | [v] => renderChars v ++ [']']
  | v :: rest => renderChars v ++ ',' :: renderItems rest

def renderMembers : List (String × Value) → List Char
  | [] => ['\x7d']
  | [(name, v)] => renderString name ++ ':' :: renderChars v ++ ['\x7d']
  | (name, v) :: rest => renderString name ++ ':' :: renderChars v ++ ',' :: renderMembers rest

end

def render (v : Value) : String := String.ofList v.renderChars

/-! ## One item a line -/

def newLine (level : Nat) : List Char :=
  '\n' :: List.replicate (2 * level) ' '

mutual

/-- A document with one item or member a line, nested `level` deep. -/
def prettyChars (level : Nat) : Value → List Char
  | .null => "null".toList
  | .bool true => "true".toList
  | .bool false => "false".toList
  | .number n => n.text.toList
  | .string s => renderString s
  | .array [] => ['[', ']']
  | .array (v :: rest) => '[' :: prettyItems level (v :: rest)
  | .object [] => ['\x7b', '\x7d']
  | .object (m :: rest) => '\x7b' :: prettyMembers level (m :: rest)

/-- The items of a list that has some, and its closing bracket. -/
def prettyItems (level : Nat) : List Value → List Char
  | [] => newLine level ++ [']']
  | [v] => newLine (level + 1) ++ prettyChars (level + 1) v ++ newLine level ++ [']']
  | v :: rest => newLine (level + 1) ++ prettyChars (level + 1) v ++ ',' :: prettyItems level rest

def prettyMembers (level : Nat) : List (String × Value) → List Char
  | [] => newLine level ++ ['\x7d']
  | [(name, v)] =>
    newLine (level + 1) ++ renderString name ++ ':' :: ' ' :: prettyChars (level + 1) v ++
      newLine level ++ ['\x7d']
  | (name, v) :: rest =>
    newLine (level + 1) ++ renderString name ++ ':' :: ' ' :: prettyChars (level + 1) v ++
      ',' :: prettyMembers level rest

end

def pretty (v : Value) : String := String.ofList (prettyChars 0 v)

end Value

end PawnQuery.Json
