import PawnQuery.Json.Reader

/-!
# Envelopes

Every line of a report is an envelope: an object with the members `kind` and `payload`, or a list
of the two.  Other members are passed over, so only their syntax matters.  A missing payload is
null; a missing or repeated member is a fault of shape, placed where reading went on after it.
-/

namespace PawnQuery.Report

open PawnQuery.Json

/-- A report line whose payload has not been read as a record yet. -/
structure Envelope where
  kind : String
  payload : Value := .null
deriving DecidableEq, Repr

namespace Envelope

/-- What stands at the beginning of `text`, where something else was wanted: a fault of shape if
it can be read, else the fault of reading it. -/
def unwanted (wanted : Wanted) (text : List Char) : Halt :=
  let typed (outcome : Except Halt (Found × List Char)) : Halt :=
    match outcome with
    | .ok (found, rest) => .shape (.wrongType found wanted) rest
    | .error halt => halt
  match text with
  | [] => .before .endInValue []
  | '[' :: _ => .shape (.wrongType .sequence wanted) text
  | '\x7b' :: _ => .shape (.wrongType .map wanted) text
  | 'n' :: rest => typed ((readWord ['u', 'l', 'l'] rest).map fun rest => (.null, rest))
  | 't' :: rest => typed ((readWord ['r', 'u', 'e'] rest).map fun rest => (.bool true, rest))
  | 'f' :: rest =>
    typed ((readWord ['a', 'l', 's', 'e'] rest).map fun rest => (.bool false, rest))
  | '"' :: rest => typed ((readString rest).map fun (s, rest) => (.string s, rest))
  | '-' :: rest => typed ((readNumber true rest).map fun (n, rest) => (.number n, rest))
  | c :: rest =>
    if (decimalDigit? c).isSome then
      typed ((readNumber false (c :: rest)).map fun (n, rest) => (.number n, rest))
    else .past .expectedValue (c :: rest)

def readKind (text : List Char) : Step String :=
  match skipSpace text with
  | '"' :: rest => readString rest
  | rest => .error (unwanted .text rest)

def readPayload (text : List Char) : Step Value :=
  readValue (fuelFor text) (depthLimit - 1) text

/-- A fault of shape inside an object, placed behind the closing brace if that comes next. -/
def shapeInObject (fault : ShapeFault) (text : List Char) : Halt :=
  match skipSpace text with
  | '\x7d' :: rest => .shape fault rest
  | rest => .shape fault rest

structure Draft where
  kind : Option String := none
  payload : Option Value := none
deriving DecidableEq, Repr

def readMember (draft : Draft) (name : String) (text : List Char) : Step Draft :=
  if name = "kind" then
    if draft.kind.isSome then .error (shapeInObject (.repeatedMember "kind") text)
    else
      ((readColon text).bind readKind).map fun (kind, rest) =>
        ({ draft with kind := some kind }, rest)
  else if name = "payload" then
    if draft.payload.isSome then .error (shapeInObject (.repeatedMember "payload") text)
    else
      ((readColon text).bind readPayload).map fun (payload, rest) =>
        ({ draft with payload := some payload }, rest)
  else ((readColon text).bind skipValue).map fun rest => (draft, rest)

def readMembers : (fuel : Nat) → (first : Bool) → Draft → List Char → Step Envelope
  | 0, _, _, text => .error (.past .tooDeep text)
  | fuel + 1, first, draft, text =>
    match nextMember first text with
    | .error halt => .error halt
    | .ok (.finished rest) =>
      match draft.kind with
      | some kind => .ok (⟨kind, draft.payload.getD .null⟩, rest)
      | none => .error (.shape (.missingMember "kind") rest)
    | .ok (.name rest) =>
      match readString rest with
      | .error halt => .error halt
      | .ok (name, rest) =>
        match readMember draft name rest with
        | .error halt => .error halt
        | .ok (draft, rest) => readMembers fuel false draft rest

def readListEnd (text : List Char) : Except Halt (List Char) :=
  match skipSpace text with
  | ']' :: rest => .ok rest
  | ',' :: rest =>
    match skipSpace rest with
    | ']' :: after => .error (.past .trailingComma (']' :: after))
    | after => .error (.past .trailingCharacters after)
  | [] => .error (.before .endInList [])
  | rest => .error (.past .trailingCharacters rest)

/-- Reads an envelope written as a list, behind its bracket. -/
def readList (text : List Char) : Step Envelope :=
  match nextItem true text with
  | .error halt => .error halt
  | .ok (.finished rest) => .error (.shape .emptyEnvelope rest)
  | .ok (.item rest) =>
    match readKind rest with
    | .error halt => .error halt
    | .ok (kind, rest) =>
      match nextItem false rest with
      | .error halt => .error halt
      | .ok (.finished rest) => .ok (⟨kind, .null⟩, rest)
      | .ok (.item rest) =>
        match readPayload rest with
        | .error halt => .error halt
        | .ok (payload, rest) => (readListEnd rest).map fun rest => (⟨kind, payload⟩, rest)

def read (text : List Char) : Step Envelope :=
  match skipSpace text with
  | '[' :: rest => readList rest
  | '\x7b' :: rest => readMembers (rest.length + 1) true {} rest
  | rest => .error (unwanted .envelope rest)

def parse (line : List Char) : Except Fault Envelope :=
  let outcome : Except Halt Envelope :=
    match read line with
    | .error halt => .error halt
    | .ok (envelope, rest) => (readEnd rest).map fun _ => envelope
  outcome.mapError (·.inText line)

end Envelope

end PawnQuery.Report
