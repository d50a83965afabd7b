import PawnQuery.Yaml.Token.Scalar

/-!
# Scanning

A text is cut into tokens from left to right.  Whether a scalar is a key shows only at the colon
behind it, so every place at which a key may begin is remembered; a key lies on one line and within
1024 characters.  In block collections the columns decide where a collection begins and ends.
-/

namespace PawnQuery.Yaml

/-- A place at which a key may have begun. -/
structure KeyPlace where
  tokenNumber : Nat
  start : Cursor
  /-- Only a key can stand there. -/
  required : Bool
deriving Repr, Inhabited

structure Scanner where
  cursor : Cursor
  tokens : Array Token := #[]
  /-- The column of the innermost block collection, counted from one; none yet is zero. -/
  indent : Nat := 0
  outer : List Nat := []
  /-- The place at which a key may have begun, for the block level and each flow level, innermost
  first. -/
  keyPlaces : List (Option KeyPlace) := [none]
  keyAllowed : Bool := true
deriving Inhabited

namespace Scanner

/-- The longest key, in characters. -/
def keyLimit : Nat := 1024

abbrev Scanned := Except Fault Scanner

def inFlow (s : Scanner) : Bool := 1 < s.keyPlaces.length

def rest (s : Scanner) : List Char := s.cursor.rest

def push (s : Scanner) (t : Token) : Scanner := { s with tokens := s.tokens.push t }

def insert (s : Scanner) (place : Nat) (t : Token) : Scanner :=
  if h : place ≤ s.tokens.size then { s with tokens := s.tokens.insertIdx place t h } else s.push t

def skip (s : Scanner) (n : Nat) : Scanner := { s with cursor := s.cursor.skipMany n }

def allowKey (s : Scanner) (allowed : Bool) : Scanner := { s with keyAllowed := allowed }

/-! ## Keys -/

def dropKey (s : Scanner) : Scanned :=
  match s.keyPlaces with
  | some k :: others =>
    if k.required then .error .missingColon else .ok { s with keyPlaces := none :: others }
  | _ => .ok s

def saveKey (s : Scanner) : Scanned :=
  if s.keyAllowed then
    let required := !s.inFlow && s.indent == s.cursor.column + 1
    s.dropKey.map fun s =>
      { s with keyPlaces := some ⟨s.tokens.size, s.cursor, required⟩ :: s.keyPlaces.drop 1 }
  else .ok s

def isStale (c : Cursor) (k : KeyPlace) : Bool :=
  k.start.line < c.line || k.start.index + keyLimit < c.index

def dropStaleKeys (s : Scanner) : Scanned :=
  let stale := s.keyPlaces.filterMap fun k => k.filter (isStale s.cursor)
  if stale.any (·.required) then .error .missingColon
  else .ok { s with keyPlaces := s.keyPlaces.map fun k => k.filter fun k => !isStale s.cursor k }

/-! ## Block collections -/

/-- Begins a block collection at a column if it lies deeper than the innermost one; its token goes
before the token of this number, or last. -/
def openBlock (s : Scanner) (column : Nat) (place : Option Nat) (t : Token) : Scanner :=
  if !s.inFlow && s.indent < column + 1 then
    let deeper := { s with indent := column + 1, outer := s.indent :: s.outer }
    match place with
    | some n => deeper.insert n t
    | none => deeper.push t
  else s

def closeWithin (s : Scanner) (depth : Nat) : List Nat → Scanner
  | [] => s
  | around :: outer =>
    if depth < s.indent then
      closeWithin { s with tokens := s.tokens.push .blockEnd, indent := around, outer := outer }
        depth outer
    else s

/-- Ends the block collections that lie deeper than `depth`, counted from one. -/
def closeBlocks (s : Scanner) (depth : Nat) : Scanner :=
  if s.inFlow then s else s.closeWithin depth s.outer

/-! ## Space between tokens -/

/-- Passes over blanks, comments and line breaks.  Behind a line break a key may begin, and tabs
may not stand where one may.  A mark of byte order may begin a line and takes a column. -/
def skipSpace : (fuel : Nat) → Scanner → Scanner
  | 0, s => s
  | fuel + 1, s =>
    let blank (c : Char) : Bool := c == ' ' || ((s.inFlow || !s.keyAllowed) && c == '\t')
    let c := s.cursor
    let c := if c.column == 0 && c.rest.head?.any isByteOrderMark then c.skip else c
    let c := c.skipWhile blank
    let c := if c.rest.head? = some '#' then c.skipWhile fun x => !isBreak x else c
    if c.rest.head?.any isBreak then
      skipSpace fuel
        { s with cursor := c.readBreak.1, keyAllowed := s.keyAllowed || !s.inFlow }
    else { s with cursor := c }

/-! ## Indicators -/

def closeAll (s : Scanner) : Scanned := (s.closeBlocks 0).dropKey.map fun s => s.allowKey false

def readMark (s : Scanner) (t : Token) : Scanned := s.closeAll.map fun s => (s.skip 3).push t

def openFlow (s : Scanner) (t : Token) : Scanned :=
  s.saveKey.map fun s =>
    (({ s with keyPlaces := none :: s.keyPlaces }.allowKey true).skip 1).push t

def closeFlow (s : Scanner) (t : Token) : Scanned :=
  s.dropKey.map fun s =>
    let places := if s.inFlow then s.keyPlaces.drop 1 else s.keyPlaces
    (({ s with keyPlaces := places }.allowKey false).skip 1).push t

def readFlowEntry (s : Scanner) : Scanned :=
  s.dropKey.map fun s => ((s.allowKey true).skip 1).push .flowEntry

def readBlockEntry (s : Scanner) : Scanned :=
  if !s.inFlow && !s.keyAllowed then .error .misplacedEntry
  else
    (s.openBlock s.cursor.column none .blockSequenceStart).dropKey.map fun s =>
      ((s.allowKey true).skip 1).push .blockEntry

def readKey (s : Scanner) : Scanned :=
  if !s.inFlow && !s.keyAllowed then .error .misplacedKey
  else
    (s.openBlock s.cursor.column none .blockMappingStart).dropKey.map fun s =>
      ((s.allowKey (!s.inFlow)).skip 1).push .key

/-- A colon in front of a value; what stands before it may turn out to be a key. -/
def readValue (s : Scanner) : Scanned :=
  match s.keyPlaces with
  | some k :: others =>
    let s := { s with keyPlaces := none :: others }.insert k.tokenNumber .key
    let s := s.openBlock k.start.column (some k.tokenNumber) .blockMappingStart
    .ok (((s.allowKey false).skip 1).push .value)
  | _ =>
    if !s.inFlow && !s.keyAllowed then .error .misplacedValue
    else
      let s := s.openBlock s.cursor.column none .blockMappingStart
      .ok (((s.allowKey (!s.inFlow)).skip 1).push .value)

/-! ## Properties of nodes -/

def endsAnchor (c : Char) : Bool :=
  isBlank c || isBreak c || c == '?' || c == ':' || c == ',' || c == ']' || c == '\x7d' ||
    c == '%' || c == '@' || c.toNat == 0x60

def readAnchor (s : Scanner) (make : String → Token) : Scanned :=
  s.saveKey.bind fun s =>
    let s := (s.allowKey false).skip 1
    let name := s.rest.takeWhile isName
    let after := s.skip name.length
    if name.isEmpty || !startsWith endsAnchor after.rest then .error .badAnchor
    else .ok (after.push (make (String.ofList name)))

def isTagChar (withBrackets : Bool) (c : Char) : Bool :=
  isName c || ";/?:@&=+$.!~*'()".toList.contains c ||
    (withBrackets && (c == ',' || c == '[' || c == ']'))

def readTagEscape : (count : Nat) → List UInt8 → Cursor → Except Fault (List UInt8 × Cursor)
  | 0, bytes, c => .ok (bytes, c)
  | n + 1, bytes, c =>
    match c.rest with
    | '%' :: a :: b :: _ =>
      match Token.hexValue? [a, b] with
      | some value => readTagEscape n (bytes ++ [UInt8.ofNat value]) (c.skipMany 3)
      | none => .error .badTag
    | _ => .error .badTag

def sequenceLength? (first : Nat) : Option Nat :=
  if first < 0x80 then some 1
  else if 0xC0 ≤ first ∧ first < 0xE0 then some 2
  else if 0xE0 ≤ first ∧ first < 0xF0 then some 3
  else if 0xF0 ≤ first ∧ first < 0xF8 then some 4
  else none

def readTagText (withBrackets : Bool) :
    (fuel : Nat) → List Char → Cursor → Except Fault (List Char × Cursor)
  | 0, acc, c => .ok (acc, c)
  | fuel + 1, acc, c =>
    match c.rest with
    | '%' :: a :: b :: _ =>
      match Token.hexValue? [a, b] with
      | none => .error .badTag
      | some first =>
        match sequenceLength? first with
        | none => .error .badTag
        | some length =>
          match readTagEscape length [] c with
          | .error fault => .error fault
          | .ok (bytes, after) =>
            match String.fromUTF8? ⟨bytes.toArray⟩ with
            | none => .error .badTag
            | some text => readTagText withBrackets fuel (text.toList.reverse ++ acc) after
    | '%' :: _ => .error .badTag
    | x :: _ =>
      if isTagChar withBrackets x then readTagText withBrackets fuel (x :: acc) c.skip
      else .ok (acc, c)
    | [] => .ok (acc, c)

def readTagSuffix (withBrackets : Bool) (before : List Char) (c : Cursor) :
    Except Fault (String × Cursor) :=
  (readTagText withBrackets c.rest.length.succ before.reverse c).bind fun (text, after) =>
    .ok (String.ofList text.reverse, after)

def readHandle (c : Cursor) : List Char × Cursor :=
  let name := (c.rest.drop 1).takeWhile isName
  let after := c.skipMany (name.length + 1)
  if after.rest.head? = some '!' then (('!' :: name) ++ ['!'], after.skip)
  else ('!' :: name, after)

def tagAt (c : Cursor) : Except Fault (Token × Cursor) :=
  match c.rest with
  | '!' :: '<' :: _ =>
    (readTagSuffix true [] (c.skipMany 2)).bind fun (suffix, after) =>
      if suffix.isEmpty || after.rest.head? ≠ some '>' then .error .badTag
      else .ok (.tag "" suffix, after.skip)
  | _ =>
    let (handle, after) := readHandle c
    if 1 < handle.length ∧ handle.getLast? = some '!' then
      (readTagSuffix false [] after).bind fun (suffix, after) =>
        if suffix.isEmpty then .error .badTag
        else .ok (.tag (String.ofList handle) suffix, after)
    else
      (readTagSuffix false (handle.drop 1) after).bind fun (suffix, after) =>
        if suffix.isEmpty then .ok (.tag "" "!", after) else .ok (.tag "!" suffix, after)

def readTag (s : Scanner) : Scanned :=
  s.saveKey.bind fun s =>
    (tagAt s.cursor).bind fun (t, after) =>
      if atBlankOrEnd after.rest || (s.inFlow && after.rest.head? == some ',') then
        .ok (({ s with cursor := after }.allowKey false).push t)
      else .error .badTag

/-! ## Directives -/

def readVersionNumber (c : Cursor) : Except Fault (Nat × Cursor) :=
  let digits := c.rest.takeWhile Char.isDigit
  if digits.isEmpty || 9 < digits.length then .error .badDirective
  else .ok ((String.ofList digits).toNat?.getD 0, c.skipMany digits.length)

def directiveAt (name : String) (c : Cursor) : Except Fault (Token × Cursor) := do
  match name with
  | "YAML" =>
    let (major, c) ← readVersionNumber (c.skipWhile isBlank)
    if c.rest.head? ≠ some '.' then throw .badDirective
    let (minor, c) ← readVersionNumber c.skip
    return (.versionDirective major minor, c)
  | "TAG" =>
    let c := c.skipWhile isBlank
    if c.rest.head? ≠ some '!' then throw .badDirective
    let (handle, c) := readHandle c
    if 1 < handle.length ∧ handle.getLast? ≠ some '!' then throw .badDirective
    if !c.rest.head?.any isBlank then throw .badDirective
    let (start, c) ← readTagSuffix true [] (c.skipWhile isBlank)
    if start.isEmpty || !atBlankOrEnd c.rest then throw .badDirective
    return (.tagDirective (String.ofList handle) start, c)
  | _ => throw .badDirective

/-- A directive; nothing but a comment may follow it on its line. -/
def readDirective (s : Scanner) : Scanned :=
  s.closeAll.bind fun s =>
    let c := s.cursor.skip
    let name := c.rest.takeWhile isName
    let after := c.skipMany name.length
    if name.isEmpty || !atBlankOrEnd after.rest then .error .badDirective
    else
      (directiveAt (String.ofList name) after).bind fun (t, c) =>
        let c := c.skipWhile isBlank
        let c := if c.rest.head? = some '#' then c.skipWhile fun x => !isBreak x else c
        if atLineEnd c.rest then .ok ({ s with cursor := c.readBreak.1 }.push t)
        else .error .badDirective

/-! ## Scalars -/

def readQuoted (s : Scanner) (quote : Char) (style : Style) : Scanned :=
  s.saveKey.bind fun s =>
    (Token.readQuoted quote s.rest.length.succ [] s.cursor.skip).map fun (text, after) =>
      ({ s with cursor := after }.allowKey false).push (.scalar text style)

def readBlock (s : Scanner) (literal : Bool) (style : Style) : Scanned :=
  s.dropKey.bind fun s =>
    (Token.readBlock literal s.indent s.cursor.skip).map fun (text, after) =>
      ({ s with cursor := after }.allowKey true).push (.scalar text style)

/-- A plain scalar; if line breaks follow it, a key may begin behind it. -/
def readPlain (s : Scanner) : Scanned :=
  s.saveKey.bind fun s =>
    (Token.readPlain s.inFlow s.indent s.rest.length.succ [] {} s.cursor).map
      fun (text, after, broken) =>
        ({ s with cursor := after }.allowKey broken).push (.scalar text .plain)

/-- The character cannot begin a plain scalar, unless something follows that makes it one. -/
def isIndicator (c : Char) : Bool :=
  "-?:,[]{}#&*!|>'\"%@".toList.contains c || c.toNat == 0x60

def beginsPlain (inFlow : Bool) : List Char → Bool
  | [] => false
  | c :: rest =>
    !(isBlank c || isBreak c || isIndicator c) || (c == '-' && !rest.head?.any isBlank) ||
      (!inFlow && (c == '?' || c == ':') && !atBlankOrEnd rest)

/-! ## The whole text -/

def readToken (s : Scanner) : Scanned :=
  let atStart := s.cursor.column == 0
  let alone := s.inFlow || atBlankOrEnd (s.rest.drop 1)
  match s.rest with
  | [] => .ok s
  | c :: rest =>
    if atStart && c == '%' then s.readDirective
    else if atStart && atMark '-' s.rest then s.readMark .documentStart
    else if atStart && atMark '.' s.rest then s.readMark .documentEnd
    else if c == '[' then s.openFlow .flowSequenceStart
    else if c == '\x7b' then s.openFlow .flowMappingStart
    else if c == ']' then s.closeFlow .flowSequenceEnd
    else if c == '\x7d' then s.closeFlow .flowMappingEnd
    else if c == ',' then s.readFlowEntry
    else if c == '-' && atBlankOrEnd rest then s.readBlockEntry
    else if c == '?' && alone then s.readKey
    else if c == ':' && alone then s.readValue
    else if c == '*' then s.readAnchor .alias
    else if c == '&' then s.readAnchor .anchor
    else if c == '!' then s.readTag
    else if c == '|' && !s.inFlow then s.readBlock true .literal
    else if c == '>' && !s.inFlow then s.readBlock false .folded
    else if c == '\x27' then s.readQuoted '\x27' .singleQuoted
    else if c == '"' then s.readQuoted '"' .doubleQuoted
    else if beginsPlain s.inFlow s.rest then s.readPlain
    else .error .unexpectedCharacter

def readAll : (fuel : Nat) → Scanner → Scanned
  | 0, s => .ok s
  | fuel + 1, s =>
    (s.skipSpace s.rest.length.succ).dropStaleKeys.bind fun s =>
      let s := s.closeBlocks (s.cursor.column + 1)
      if s.rest.isEmpty then s.closeAll
      else s.readToken.bind fun s => readAll fuel s

end Scanner

def Token.scan (text : List Char) : Except Fault (List Token) :=
  if text.all isAllowed then
    (Scanner.readAll text.length.succ { cursor := ⟨text, 0, 0, 0⟩ }).map fun s => s.tokens.toList
  else .error .forbiddenCharacter

end PawnQuery.Yaml
