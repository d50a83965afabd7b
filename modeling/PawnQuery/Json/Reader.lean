import PawnQuery.Json.Reading

/-!
# Reading JSON documents

A document is read in one pass.  Lists and objects may nest to a fixed depth; of members that
share a name the last one counts.  A document that is only passed over is checked for its syntax,
but its depth and its numbers are not limited.

The recursion is bounded by the length of the text: every step reads at least one character or
leads to one that does.
-/

namespace PawnQuery.Json

def depthLimit : Nat := 127

/-! ## Separators -/

/-- Where the items of a list go on: at an item or behind the closing bracket. -/
inductive ListPoint where
  | item (rest : List Char)
  | finished (rest : List Char)
deriving DecidableEq, Repr

/-- Looks for the next item of a list; `first` says that none was read yet. -/
def nextItem (first : Bool) (text : List Char) : Except Halt ListPoint :=
  match skipSpace text with
  | [] => .error (.before .endInList [])
  | ']' :: rest => .ok (.finished rest)
  | c :: rest =>
    if first then .ok (.item (c :: rest))
    else if c = ',' then
      match skipSpace rest with
      | [] => .error (.before .endInValue [])
      | ']' :: after => .error (.past .trailingComma (']' :: after))
      | after => .ok (.item after)
    else .error (.past .expectedCommaOrListEnd (c :: rest))

/-- Where the members of an object go on: behind the opening quote of a name or behind the closing
brace. -/
inductive ObjectPoint where
  | name (rest : List Char)
  | finished (rest : List Char)
deriving DecidableEq, Repr

def nextMember (first : Bool) (text : List Char) : Except Halt ObjectPoint :=
  match skipSpace text with
  | [] => .error (.before .endInObject [])
  | '\x7d' :: rest => .ok (.finished rest)
  | c :: rest =>
    if first then
      if c = '"' then .ok (.name rest) else .error (.past .memberNameNotString (c :: rest))
    else if c = ',' then
      match skipSpace rest with
      | [] => .error (.before .endInValue [])
      | '"' :: after => .ok (.name after)
      | '\x7d' :: after => .error (.past .trailingComma ('\x7d' :: after))
      | after => .error (.past .memberNameNotString after)
    else .error (.past .expectedCommaOrObjectEnd (c :: rest))

def readColon (text : List Char) : Except Halt (List Char) :=
  match skipSpace text with
  | ':' :: rest => .ok rest
  | [] => .error (.before .endInObject [])
  | rest => .error (.past .expectedColon rest)

/-! ## Values -/

mutual

/-- Reads a value in which lists and objects nest at most `depth` deep. -/
def readValue : (fuel : Nat) → (depth : Nat) → (text : List Char) → Step Value
  | 0, _, text => .error (.past .tooDeep text)
  | fuel + 1, depth, text =>
    match skipSpace text with
    | [] => .error (.before .endInValue [])
    | 'n' :: rest => (readWord ['u', 'l', 'l'] rest).map fun rest => (.null, rest)
    | 't' :: rest => (readWord ['r', 'u', 'e'] rest).map fun rest => (.bool true, rest)
    | 'f' :: rest =>
      (readWord ['a', 'l', 's', 'e'] rest).map fun rest => (.bool false, rest)
    | '"' :: rest => (readString rest).map fun (s, rest) => (.string s, rest)
    | '-' :: rest => (readNumber true rest).map fun (n, rest) => (.number n, rest)
    | '[' :: rest =>
      match depth with
      | 0 => .error (.past .tooDeep ('[' :: rest))
      | depth + 1 => readItems fuel depth true [] rest
    | '\x7b' :: rest =>
      match depth with
      | 0 => .error (.past .tooDeep ('\x7b' :: rest))
      | depth + 1 => readMembers fuel depth true [] rest
    | c :: rest =>
      if (decimalDigit? c).isSome then
        (readNumber false (c :: rest)).map fun (n, rest) => (.number n, rest)
      else .error (.past .expectedValue (c :: rest))

/-- Reads the items of a list behind its bracket or behind an item; `done` holds the items read,
the latest first. -/
def readItems : (fuel depth : Nat) → (first : Bool) → (done : List Value) → (text : List Char) →
    Step Value
  | 0, _, _, _, text => .error (.past .tooDeep text)
  | fuel + 1, depth, first, done, text =>
    match nextItem first text with
    | .error halt => .error halt
    | .ok (.finished rest) => .ok (.array done.reverse, rest)
    | .ok (.item rest) =>
      match readValue fuel depth rest with
      | .error halt => .error halt
      | .ok (v, rest) => readItems fuel depth false (v :: done) rest

def readMembers : (fuel depth : Nat) → (first : Bool) → (done : List Member) →
    (text : List Char) → Step Value
  | 0, _, _, _, text => .error (.past .tooDeep text)
  | fuel + 1, depth, first, done, text =>
    match nextMember first text with
    | .error halt => .error halt
    | .ok (.finished rest) => .ok (.object done, rest)
    | .ok (.name rest) =>
      match readString rest with
      | .error halt => .error halt
      | .ok (name, rest) =>
        match readColon rest with
        | .error halt => .error halt
        | .ok rest =>
          match readValue fuel depth rest with
          | .error halt => .error halt
          | .ok (v, rest) => readMembers fuel depth false (Value.insertMember name v done) rest

end

def fuelFor (text : List Char) : Nat := 2 * text.length + 2

/-! ## Passing over values -/

/-- What a value that is passed over stands in. -/
inductive Frame where
  | list
  | object
deriving DecidableEq, Repr

namespace Frame

def ended : Frame → SyntaxFault
  | .list => .endInList
  | .object => .endInObject

def unseparated : Frame → SyntaxFault
  | .list => .expectedCommaOrListEnd
  | .object => .expectedCommaOrObjectEnd

def closing : Frame → Char
  | .list => ']'
  | .object => '\x7d'

end Frame

def skipName (text : List Char) : Except Halt (List Char) :=
  match skipSpace text with
  | '"' :: rest =>
    match skipString rest with
    | .error halt => .error halt
    | .ok rest => readColon rest
  | [] => .error (.before .endInObject [])
  | rest => .error (.past .memberNameNotString rest)

def skipToValue : Frame → List Char → Except Halt (List Char)
  | .list, text => .ok text
  | .object, text => skipName text

def skipAtom (text : List Char) : Except Halt (Option Frame × List Char) :=
  match skipSpace text with
  | [] => .error (.before .endInValue [])
  | 'n' :: rest => (readWord ['u', 'l', 'l'] rest).map fun rest => (none, rest)
  | 't' :: rest => (readWord ['r', 'u', 'e'] rest).map fun rest => (none, rest)
  | 'f' :: rest => (readWord ['a', 'l', 's', 'e'] rest).map fun rest => (none, rest)
  | '"' :: rest => (skipString rest).map fun rest => (none, rest)
  | '-' :: rest => (skipNumber rest).map fun rest => (none, rest)
  | '[' :: rest => .ok (some .list, rest)
  | '\x7b' :: rest => .ok (some .object, rest)
  | c :: rest =>
    if (decimalDigit? c).isSome then (skipNumber (c :: rest)).map fun rest => (none, rest)
    else .error (.past .expectedValue (c :: rest))

/-- Passes over closing brackets behind a value, up to where the next value is due or, when
nothing is open any more, to the end.  `closable` says that a value was just completed. -/
def skipClosings : (fuel : Nat) → (closable : Bool) → (stack : List Frame) → List Char →
    Except Halt (List Frame × List Char)
  | 0, _, stack, text => .ok (stack, text)
  | _, _, [], text => .ok ([], text)
  | fuel + 1, closable, frame :: outer, text =>
    match skipSpace text with
    | [] => .error (.before frame.ended [])
    | c :: rest =>
      if c = frame.closing then skipClosings fuel true outer rest
      else if closable then
        if c = ',' then .ok (frame :: outer, rest)
        else .error (.past frame.unseparated (c :: rest))
      else .ok (frame :: outer, c :: rest)

def skipWithin : (fuel : Nat) → (stack : List Frame) → List Char → Except Halt (List Char)
  | 0, _, text => .error (.past .tooDeep text)
  | fuel + 1, stack, text =>
    match skipAtom text with
    | .error halt => .error halt
    | .ok (opened, rest) =>
      let stack := opened.toList ++ stack
      match skipClosings (rest.length + 1) opened.isNone stack rest with
      | .error halt => .error halt
      | .ok ([], rest) => .ok rest
      | .ok (frame :: outer, rest) =>
        match skipToValue frame rest with
        | .error halt => .error halt
        | .ok rest => skipWithin fuel (frame :: outer) rest

def skipValue (text : List Char) : Except Halt (List Char) :=
  skipWithin (fuelFor text) [] text

/-! ## Whole texts -/

def readEnd (text : List Char) : Except Halt Unit :=
  match skipSpace text with
  | [] => .ok ()
  | rest => .error (.past .trailingCharacters rest)

def Value.parse (text : String) : Except Fault Value :=
  let chars := text.toList
  let outcome : Except Halt Value := do
    let (v, rest) ← readValue (fuelFor chars) depthLimit chars
    readEnd rest
    return v
  outcome.mapError (·.inText chars)

end PawnQuery.Json
