import PawnQuery.Json.Value
import PawnQuery.Decimal.Shortest
import PawnQuery.Text.Quoted
import PawnQuery.Text.Utf8

/-!
# What can be wrong with a document

A document fails in one of two ways.  Its text may not be JSON, or it may be JSON of another shape
than the one wanted.  A fault met while reading a text has a position in it.
-/

namespace PawnQuery.Json

open PawnQuery.Decimal (Binary64 Layout)

/-- Numbers are written out in full from 0.00001 up to below 10 ^ 16, and always with a fraction. -/
def numberLayout : Layout := ⟨-5, 15, 'e'⟩

inductive SyntaxFault where
  | endInValue
  | endInList
  | endInObject
  | endInString
  | expectedValue
  | expectedWord
  | expectedColon
  | expectedCommaOrListEnd
  | expectedCommaOrObjectEnd
  | memberNameNotString
  | trailingComma
  | trailingCharacters
  | invalidNumber
  | numberOutOfRange
  | invalidEscape
  | loneSurrogate
  | endOfEscapePair
  | controlCharacter
  | tooDeep
deriving DecidableEq, Repr

inductive Found where
  | null
  | bool (value : Bool)
  | number (value : Number)
  | string (value : String)
  | sequence
  | map
deriving DecidableEq, Repr

inductive Wanted where
  | envelope
  | diagnostic
  | symbol
  | sequence
  | text
  | path
  | unsigned32
  | record (name : String)
  | boolean
  | size
deriving DecidableEq, Repr

inductive Alternative where
  | includedFile
  | parameter
deriving DecidableEq, Repr

inductive ShapeFault where
  | wrongType (found : Found) (wanted : Wanted)
  | wrongValue (found : Found) (wanted : Wanted)
  | missingMember (name : String)
  | repeatedMember (name : String)
  /-- An envelope written as a list holds nothing. -/
  | emptyEnvelope
  /-- A record of `wanted` members written as a list holds too few. -/
  | tooShort (count : Nat) (record : String) (wanted : Nat)
  /-- A record written as a list holds more items than it has members. -/
  | tooLong (count : Nat)
  | noAlternative (of : Alternative)
deriving DecidableEq, Repr

inductive Cause where
  | notJson (fault : SyntaxFault)
  | misshapen (fault : ShapeFault)
deriving DecidableEq, Repr

/-- A place in a text: lines count from one, columns are bytes on the line. -/
structure Position where
  line : Nat
  column : Nat
deriving DecidableEq, Repr

/-- A refused document, with the place in its text if it was refused while it was read. -/
structure Fault where
  cause : Cause
  position : Option Position := none
deriving DecidableEq, Repr

/-! ## Places -/

namespace Position

def next (p : Position) (c : Char) : Position :=
  if c = '\n' then ⟨p.line + 1, 0⟩ else ⟨p.line, p.column + c.utf8Size⟩

/-- The place `offset` bytes into a text, counted on from `p`. -/
def advance (p : Position) : Nat → List Char → Position
  | 0, _ => p
  | offset, [] => ⟨p.line, p.column + offset⟩
  | offset, c :: rest =>
    if offset < c.utf8Size then ⟨p.line, p.column + offset⟩
    else advance (p.next c) (offset - c.utf8Size) rest

def ofOffset (text : List Char) (offset : Nat) : Position :=
  advance ⟨1, 0⟩ offset text

end Position

/-! ## Wording -/

def SyntaxFault.message : SyntaxFault → String
  | .endInValue => "EOF while parsing a value"
  | .endInList => "EOF while parsing a list"
  | .endInObject => "EOF while parsing an object"
  | .endInString => "EOF while parsing a string"
  | .expectedValue => "expected value"
  | .expectedWord => "expected ident"
  | .expectedColon => "expected `:`"
  | .expectedCommaOrListEnd => "expected `,` or `]`"
  | .expectedCommaOrObjectEnd => "expected `,` or `\x7d`"
  | .memberNameNotString => "key must be a string"
  | .trailingComma => "trailing comma"
  | .trailingCharacters => "trailing characters"
  | .invalidNumber => "invalid number"
  | .numberOutOfRange => "number out of range"
  | .invalidEscape => "invalid escape"
  | .loneSurrogate => "lone leading surrogate in hex escape"
  | .endOfEscapePair => "unexpected end of hex escape"
  | .controlCharacter => "control character (\\u0000-\\u001F) found while parsing a string"
  | .tooDeep => "recursion limit exceeded"

def Found.message : Found → String
  | .null => "null"
  | .bool value => "boolean `" ++ (if value then "true" else "false") ++ "`"
  | .number (.int value) => "integer `" ++ toString value ++ "`"
  | .number (.real value) => "floating point `" ++ value.text numberLayout ++ "`"
  | .string value => "string " ++ Text.Quoting.plain.quote value
  | .sequence => "sequence"
  | .map => "map"

def Wanted.message : Wanted → String
  | .envelope => "struct RawRecord"
  | .diagnostic => "struct Diagnostic"
  | .symbol => "struct Symbol"
  | .sequence => "a sequence"
  | .text => "a string"
  | .path => "path string"
  | .unsigned32 => "u32"
  | .record name => "struct " ++ name
  | .boolean => "a boolean"
  | .size => "usize"

def Alternative.message : Alternative → String
  | .includedFile => "IncludedFileRepr"
  | .parameter => "ParameterRepr"

def ShapeFault.message : ShapeFault → String
  | .wrongType found wanted =>
    "invalid type: " ++ found.message ++ ", expected " ++ wanted.message
  | .wrongValue found wanted =>
    "invalid value: " ++ found.message ++ ", expected " ++ wanted.message
  | .missingMember name => "missing field `" ++ name ++ "`"
  | .repeatedMember name => "duplicate field `" ++ name ++ "`"
  | .emptyEnvelope => "invalid length 0, expected struct RawRecord with 2 elements"
  | .tooShort count record wanted =>
    "invalid length " ++ toString count ++ ", expected struct " ++ record ++ " with " ++
      toString wanted ++ " elements"
  | .tooLong count =>
    "invalid length " ++ toString count ++ ", expected fewer elements in array"
  | .noAlternative of => "data did not match any variant of untagged enum " ++ of.message

def Cause.message : Cause → String
  | .notJson fault => fault.message
  | .misshapen fault => fault.message

def Fault.message (f : Fault) : String :=
  match f.position with
  | none => f.cause.message
  | some p => f.cause.message ++ " at line " ++ toString p.line ++ " column " ++ toString p.column

def Value.found : Value → Found
  | .null => .null
  | .bool value => .bool value
  | .number value => .number value
  | .string value => .string value
  | .array _ => .sequence
  | .object _ => .map

end PawnQuery.Json
