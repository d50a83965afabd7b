import PawnQuery.Report.NonFinite

/-!
# Mending a line in place

A line is stored as UTF-8, and its words for numbers that are not finite are found byte by byte.
Stretches without one are copied whole.  Reading or cutting where the line does not allow it fails.
-/

namespace PawnQuery.Report

def utf8 (text : List Char) : List UInt8 := text.flatMap String.utf8EncodeChar

def isWordByte (b : UInt8) : Bool :=
  (0x61 ≤ b && b ≤ 0x7A) || (0x41 ≤ b && b ≤ 0x5A) || (0x30 ≤ b && b ≤ 0x39) || b == 0x5F

inductive NonFinite where
  | infinity
  | notANumber
deriving DecidableEq, Repr

namespace NonFinite

def all : List NonFinite := [.infinity, .notANumber]

def name : NonFinite → List Char
  | .infinity => "Infinity".toList
  | .notANumber => "NaN".toList

def bytes (word : NonFinite) : List UInt8 := utf8 word.name

end NonFinite

/-! ## Reading and cutting -/

/-- A character may end and another begin here. -/
def isBoundary (bytes : List UInt8) (i : Nat) : Bool :=
  match bytes[i]? with
  | some b => i == 0 || b < 0x80 || 0xC0 ≤ b
  | none => i == bytes.length

/-- The text between two places of a line, where characters must begin and end. -/
def slice? (bytes : List UInt8) (start stop : Nat) : Option (List UInt8) :=
  if start ≤ stop ∧ isBoundary bytes start ∧ isBoundary bytes stop then
    some ((bytes.take stop).drop start)
  else none

def suffix? (bytes : List UInt8) (start : Nat) : Option (List UInt8) :=
  if start ≤ bytes.length then some (bytes.drop start) else none

def beginsWord? (bytes : List UInt8) (i : Nat) : Option Bool :=
  if i = 0 then some true
  else bytes[i - 1]?.map fun b => !isWordByte b

/-- The word for a number that is not finite which stands here, if there is one. -/
def nonFiniteAt? (bytes : List UInt8) (i : Nat) : Option (Option NonFinite) := do
  if ← beginsWord? bytes i then
    let rest ← suffix? bytes i
    return NonFinite.all.find? fun word =>
      word.bytes.isPrefixOf rest && (bytes[i + word.bytes.length]?).all fun b => !isWordByte b
  else return none

/-! ## The scan -/

structure LineScan where
  /-- The mended text of what lies before `copied`. -/
  output : List UInt8 := []
  copied : Nat := 0
  inString : Bool := false
  escaped : Bool := false
deriving DecidableEq, Repr

namespace LineScan

def passInside (s : LineScan) (b : UInt8) : LineScan :=
  if s.escaped then { s with escaped := false }
  else if b = 0x5C then { s with escaped := true }
  else if b = 0x22 then { s with inString := false }
  else s

def replace? (s : LineScan) (bytes : List UInt8) (i : Nat) (word : NonFinite) : Option LineScan :=
  (slice? bytes s.copied i).map fun before =>
    { s with
      output := s.output ++ before ++ utf8 finiteWord
      copied := i + word.bytes.length }

def scan (bytes : List UInt8) (i : Nat) (s : LineScan) : Option LineScan :=
  if inLine : i < bytes.length then
    let b := bytes[i]
    if s.inString then scan bytes (i + 1) (s.passInside b)
    else if b = 0x22 then scan bytes (i + 1) { s with inString := true }
    else do
      match ← nonFiniteAt? bytes i with
      | some word => scan bytes (i + word.bytes.length) (← s.replace? bytes i word)
      | none => scan bytes (i + 1) s
  else some s
termination_by bytes.length - i
decreasing_by
  · omega
  · omega
  · have : 0 < word.bytes.length := by cases word <;> decide
    omega
  · omega

/-- The text of the whole line, which stays if nothing in it was replaced. -/
def finish? (s : LineScan) (bytes : List UInt8) : Option (List UInt8) :=
  if s.copied = 0 then some bytes
  else (slice? bytes s.copied bytes.length).map (s.output ++ ·)

end LineScan

def scanLine? (bytes : List UInt8) : Option (List UInt8) := do
  (← LineScan.scan bytes 0 {}).finish? bytes

def occurs (part : List UInt8) : List UInt8 → Bool
  | [] => part.isEmpty
  | b :: bytes => part.isPrefixOf (b :: bytes) || occurs part bytes

/-- The mended line.  Only a line that contains such a word at all is scanned. -/
def mendLine? (bytes : List UInt8) : Option (List UInt8) :=
  if NonFinite.all.any fun word => occurs word.bytes bytes then scanLine? bytes
  else some bytes

end PawnQuery.Report
