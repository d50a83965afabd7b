import PawnQuery.Json.Fault
import PawnQuery.Decimal.Reading

/-!
# Steps of reading a JSON text

Each step takes the text not yet read and gives what it read with the rest, or the fault it met.
A fault remembers how many bytes were still unread, from which its place in the whole text
follows.  Two kinds of place occur: right before a character that was only looked at, which counts
its first byte as read, and right behind what was consumed.
-/

namespace PawnQuery.Json

open PawnQuery.Decimal (Binary64)
open PawnQuery.Text (byteLength)

/-- A fault met while reading, with the number of bytes that were still unread. -/
structure Halt where
  cause : Cause
  unread : Nat
deriving DecidableEq, Repr

abbrev Step (α : Type) := Except Halt (α × List Char)

namespace Halt

def before (fault : SyntaxFault) (rest : List Char) : Halt :=
  ⟨.notJson fault, byteLength rest⟩

/-- A fault one byte into `rest`, if there is one. -/
def past (fault : SyntaxFault) (rest : List Char) : Halt :=
  ⟨.notJson fault, byteLength rest - 1⟩

def shape (fault : ShapeFault) (rest : List Char) : Halt :=
  ⟨.misshapen fault, byteLength rest⟩

def inText (halt : Halt) (text : List Char) : Fault :=
  ⟨halt.cause, some (.ofOffset text (byteLength text - halt.unread))⟩

end Halt

/-! ## Blanks and words -/

def isSpace (c : Char) : Bool :=
  c == ' ' || c == '\n' || c == '\t' || c == '\r'

def skipSpace (text : List Char) : List Char :=
  text.dropWhile isSpace

def readWord : List Char → List Char → Except Halt (List Char)
  | [], rest => .ok rest
  | _ :: _, [] => .error (.before .endInValue [])
  | w :: word, c :: rest =>
    if c = w then readWord word rest else .error (.past .expectedWord (c :: rest))

/-! ## Strings -/

def hexDigit? (c : Char) : Option Nat :=
  if '0' ≤ c ∧ c ≤ '9' then some (c.toNat - 0x30)
  else if 'a' ≤ c ∧ c ≤ 'f' then some (c.toNat - 0x57)
  else if 'A' ≤ c ∧ c ≤ 'F' then some (c.toNat - 0x37)
  else none

def hexQuad? (a b c d : Char) : Option Nat := do
  return (((← hexDigit? a) * 16 + (← hexDigit? b)) * 16 + (← hexDigit? c)) * 16 + (← hexDigit? d)

/-- The fault of a `\u` escape without four hexadecimal digits: four bytes are consumed if there
are as many. -/
def badQuad (rest : List Char) : Halt :=
  if byteLength rest < 4 then .before .endInString []
  else ⟨.notJson .invalidEscape, byteLength rest - 4⟩

def shortEscape? (c : Char) : Option Char :=
  match c with
  | '"' => some '"'
  | '\\' => some '\\'
  | '/' => some '/'
  | 'b' => some '\x08'
  | 'f' => some '\x0c'
  | 'n' => some '\n'
  | 'r' => some '\r'
  | 't' => some '\t'
  | _ => none

def isLeading (unit : Nat) : Bool := 0xD800 ≤ unit && unit ≤ 0xDBFF

def isTrailing (unit : Nat) : Bool := 0xDC00 ≤ unit && unit ≤ 0xDFFF

def pairChar (leading trailing : Nat) : Char :=
  Char.ofNat ((leading - 0xD800) * 0x400 + (trailing - 0xDC00) + 0x10000)

/-- The fault of a leading code unit that no second escape follows. -/
def brokenPair : List Char → Halt
  | '\\' :: 'u' :: rest => badQuad rest
  | ['\\'] => .before .endInString []
  | '\\' :: rest => .past .endOfEscapePair rest
  | [] => .before .endInString []
  | rest => .past .endOfEscapePair rest

/-- Reads a string behind its opening quote; `done` holds its characters, the latest first. -/
def readStringFrom (done : List Char) : List Char → Step String
  | [] => .error (.before .endInString [])
  | '"' :: rest => .ok (String.ofList done.reverse, rest)
  | '\\' :: rest =>
    match rest with
    | [] => .error (.before .endInString [])
    | 'u' :: quad =>
      match quad with
      | a :: b :: c :: d :: after =>
        match hexQuad? a b c d with
        | none => .error (badQuad quad)
        | some unit =>
          if isTrailing unit then .error (.before .loneSurrogate after)
          else if isLeading unit then
            match after with
            | '\\' :: 'u' :: e :: f :: g :: h :: afterPair =>
              match hexQuad? e f g h with
              | none => .error (brokenPair after)
              | some second =>
                if isTrailing second then
                  readStringFrom (pairChar unit second :: done) afterPair
                else .error (.before .loneSurrogate afterPair)
            | other => .error (brokenPair other)
          else readStringFrom (Char.ofNat unit :: done) after
      | short => .error (badQuad short)
    | c :: after =>
      match shortEscape? c with
      | some x => readStringFrom (x :: done) after
      | none => .error (.past .invalidEscape (c :: after))
  | c :: rest =>
    if c.toNat < 0x20 then .error (.past .controlCharacter (c :: rest))
    else readStringFrom (c :: done) rest

def readString (text : List Char) : Step String := readStringFrom [] text

/-- Passes over a string behind its opening quote.  Escapes must be well formed, but code units
need not pair up. -/
def skipString : List Char → Except Halt (List Char)
  | [] => .error (.before .endInString [])
  | '"' :: rest => .ok rest
  | '\\' :: rest =>
    match rest with
    | [] => .error (.before .endInString [])
    | 'u' :: quad =>
      match quad with
      | a :: b :: c :: d :: after =>
        match hexQuad? a b c d with
        | none => .error (badQuad quad)
        | some _ => skipString after
      | short => .error (badQuad short)
    | c :: after =>
      match shortEscape? c with
      | some _ => skipString after
      | none => .error (.past .invalidEscape (c :: after))
  | c :: rest =>
    if c.toNat < 0x20 then .error (.before .controlCharacter (c :: rest))
    else skipString rest

/-! ## Numbers -/

def decimalDigit? (c : Char) : Option Nat :=
  if '0' ≤ c ∧ c ≤ '9' then some (c.toNat - 0x30) else none

def greatestInteger : Nat := 0xFFFFFFFFFFFFFFFF

/-- The digits of a number read so far.  Digits that no longer fit 64 bits are dropped; those in
front of the point count as powers of ten. -/
structure Significand where
  digits : Nat
  power : Int := 0
  full : Bool := false
deriving DecidableEq, Repr

namespace Significand

def pushWhole (s : Significand) (d : Nat) : Significand :=
  if s.full || greatestInteger < s.digits * 10 + d then ⟨s.digits, s.power + 1, true⟩
  else ⟨s.digits * 10 + d, s.power, false⟩

def pushFraction (s : Significand) (d : Nat) : Significand :=
  if s.full || greatestInteger < s.digits * 10 + d then { s with full := true }
  else ⟨s.digits * 10 + d, s.power - 1, false⟩

end Significand

def readWhole (s : Significand) : List Char → Significand × List Char
  | [] => (s, [])
  | c :: rest =>
    match decimalDigit? c with
    | some d => readWhole (s.pushWhole d) rest
    | none => (s, c :: rest)

def readFraction (s : Significand) : List Char → Significand × List Char
  | [] => (s, [])
  | c :: rest =>
    match decimalDigit? c with
    | some d => readFraction (s.pushFraction d) rest
    | none => (s, c :: rest)

def skipDigits (text : List Char) : List Char :=
  text.dropWhile fun c => (decimalDigit? c).isSome

def greatestExponent : Nat := 0x7FFFFFFF

/-- Reads the digits of an exponent behind the first.  None stands for one that is too great to be
counted out, with the text behind the digit that made it so. -/
def readExponentDigits (value : Nat) : List Char → Option Nat × List Char
  | [] => (some value, [])
  | c :: rest =>
    match decimalDigit? c with
    | some d =>
      if greatestExponent < value * 10 + d then (none, rest)
      else readExponentDigits (value * 10 + d) rest
    | none => (some value, c :: rest)

def makeReal (negative : Bool) (s : Significand) (power : Int) (rest : List Char) :
    Step Number :=
  match Binary64.ofDecimal negative s.digits power with
  | some x => .ok (.real x, rest)
  | none => .error (.before .numberOutOfRange rest)

def readExponent (negative : Bool) (s : Significand) (text : List Char) : Step Number :=
  let (down, digits) :=
    match text with
    | '+' :: rest => (false, rest)
    | '-' :: rest => (true, rest)
    | rest => (false, rest)
  match digits with
  | [] => .error (.before .endInValue [])
  | c :: rest =>
    match decimalDigit? c with
    | none => .error (.past .invalidNumber (c :: rest))
    | some d =>
      match readExponentDigits d rest with
      | (some e, rest) =>
        makeReal negative s (if down then s.power - (e : Int) else s.power + (e : Int)) rest
      | (none, rest) =>
        if s.digits ≠ 0 ∧ ¬ down then .error (.before .numberOutOfRange rest)
        else .ok (.real (.zero negative), skipDigits rest)

def readAfterFraction (negative : Bool) (s : Significand) : List Char → Step Number
  | 'e' :: rest => readExponent negative s rest
  | 'E' :: rest => readExponent negative s rest
  | rest => makeReal negative s s.power rest

def readPoint (negative : Bool) (s : Significand) (text : List Char) : Step Number :=
  match text with
  | [] => .error (.before .endInValue [])
  | c :: _ =>
    if (decimalDigit? c).isNone then .error (.past .invalidNumber text)
    else
      let (s, rest) := readFraction { s with full := false } text
      readAfterFraction negative s rest

def greatestMagnitude : Nat := 0x8000000000000000

/-- The number of digits without point and exponent.  It is an integer if it fits 64 bits with its
sign; minus zero is a fraction. -/
def makeInteger (negative : Bool) (s : Significand) (rest : List Char) : Step Number :=
  if s.full then makeReal negative s s.power rest
  else if ¬ negative then .ok (.int s.digits, rest)
  else if s.digits ≠ 0 ∧ s.digits ≤ greatestMagnitude then .ok (.int (-(s.digits : Int)), rest)
  else makeReal true s 0 rest

def readAfterWhole (negative : Bool) (s : Significand) : List Char → Step Number
  | '.' :: rest => readPoint negative s rest
  | 'e' :: rest => readExponent negative s rest
  | 'E' :: rest => readExponent negative s rest
  | rest => makeInteger negative s rest

def readNumber (negative : Bool) : List Char → Step Number
  | [] => .error (.before .endInValue [])
  | '0' :: rest =>
    match rest with
    | c :: _ =>
      if (decimalDigit? c).isSome then .error (.past .invalidNumber rest)
      else readAfterWhole negative ⟨0, 0, false⟩ rest
    | [] => readAfterWhole negative ⟨0, 0, false⟩ rest
  | c :: rest =>
    match decimalDigit? c with
    | some d =>
      let (s, rest) := readWhole ⟨d, 0, false⟩ rest
      readAfterWhole negative s rest
    | none => .error (.past .invalidNumber (c :: rest))

def skipExponent (text : List Char) : Except Halt (List Char) :=
  let digits :=
    match text with
    | '+' :: rest => rest
    | '-' :: rest => rest
    | rest => rest
  match digits with
  | [] => .error (.before .invalidNumber [])
  | c :: rest =>
    if (decimalDigit? c).isNone then .error (.past .invalidNumber (c :: rest))
    else .ok (skipDigits rest)

def skipAfterFraction : List Char → Except Halt (List Char)
  | 'e' :: rest => skipExponent rest
  | 'E' :: rest => skipExponent rest
  | rest => .ok rest

def skipAfterWhole : List Char → Except Halt (List Char)
  | '.' :: rest =>
    match rest with
    | c :: _ =>
      if (decimalDigit? c).isNone then .error (.past .invalidNumber rest)
      else skipAfterFraction (skipDigits rest)
    | [] => .error (.before .invalidNumber [])
  | rest => skipAfterFraction rest

/-- Passes over a number behind its sign, whatever its range. -/
def skipNumber : List Char → Except Halt (List Char)
  | [] => .error (.before .invalidNumber [])
  | '0' :: rest =>
    match rest with
    | c :: _ =>
      if (decimalDigit? c).isSome then .error (.past .invalidNumber rest)
      else skipAfterWhole rest
    | [] => .ok []
  | c :: rest =>
    if (decimalDigit? c).isNone then .error (.past .invalidNumber (c :: rest))
    else skipAfterWhole (skipDigits rest)

end PawnQuery.Json
