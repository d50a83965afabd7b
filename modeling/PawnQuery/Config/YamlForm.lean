import PawnQuery.Config.Reader
import PawnQuery.Yaml.Node.Reader

/-!
# Configurations in YAML

The form in which configurations are kept in files.  Where a text is wanted any scalar will do as
it is written; truth values and numbers must be plain.  A value that was left out is an empty list
or a record of defaults, but a null is neither.
-/

namespace PawnQuery.Config

open PawnQuery.Yaml (Node Style Document standardTags)

inductive TextFault where
  | notYaml (fault : Yaml.Fault)
  | misshapen (wanted : String)
  | missingMember (name : String)
  | repeatedMember (name : String)
deriving DecidableEq, Repr, Inhabited

def TextFault.message : TextFault → String
  | .notYaml fault => fault.message
  | .misshapen wanted => "invalid type: expected " ++ wanted
  | .missingMember name => "missing field `" ++ name ++ "`"
  | .repeatedMember name => "duplicate field `" ++ name ++ "`"

/-! ## Scalars -/

/-- The scalar may stand for a value that is no text: it is plain, or it is literal with the tag
for such values. -/
def isNatural (kind : String) (style : Style) (tag : Option String) : Bool :=
  match style with
  | .plain => true
  | .literal => tag == some (standardTags ++ kind)
  | _ => false

def boolOfText? (text : String) : Option Bool :=
  if ["true", "True", "TRUE"].contains text then some true
  else if ["false", "False", "FALSE"].contains text then some false
  else none

def digitsValue? (base : Nat) (digits : List Char) : Option Nat :=
  if digits.isEmpty then none
  else
    digits.foldlM
      (fun n d =>
        (Json.hexDigit? d).bind fun v => if v < base then some (n * base + v) else none)
      0

/-- A natural number below 2 ^ 64, decimal or with the mark of its base.  A plus sign may stand in
front, a zero in front of other digits may not. -/
def sizeOfText? (text : String) : Option Nat :=
  let unsigned :=
    match text.toList with
    | '+' :: rest => rest
    | rest => rest
  let number :=
    match unsigned with
    | '0' :: 'x' :: digits => digitsValue? 16 digits
    | '0' :: 'o' :: digits => digitsValue? 8 digits
    | '0' :: 'b' :: digits => digitsValue? 2 digits
    | '0' :: d :: digits => if (d :: digits).all Char.isDigit then none else digitsValue? 10 unsigned
    | digits => digitsValue? 10 digits
  number.filter (· ≤ Json.greatestInteger)

def nullWords : List String := ["~", "null", "Null", "NULL"]

/-! ## Nodes -/

def isLeftOut : Node → Bool
  | .scalar text .plain _ => text.isEmpty
  | _ => false

/-- The node holds no value, where one may be missing; what has the tag of no value must be a word
for it. -/
def readAbsence : Node → Except TextFault Bool
  | .scalar text .plain none => .ok (text.isEmpty || nullWords.contains text)
  | .scalar text .plain (some tag) =>
    if tag == standardTags ++ "null" then
      if nullWords.contains text then .ok true else .error (.misshapen "null")
    else .ok false
  | _ => .ok false

def readScalar (wanted : String) : Node → Except TextFault String
  | .scalar text _ _ => .ok text
  | _ => .error (.misshapen wanted)

def readTruth : Node → Except TextFault Bool
  | .scalar text style tag =>
    match boolOfText? text with
    | some b => if isNatural "bool" style tag then .ok b else .error (.misshapen "a boolean")
    | none => .error (.misshapen "a boolean")
  | _ => .error (.misshapen "a boolean")

def readCount : Node → Except TextFault Nat
  | .scalar text style tag =>
    match sizeOfText? text with
    | some n => if isNatural "int" style tag then .ok n else .error (.misshapen "usize")
    | none => .error (.misshapen "usize")
  | _ => .error (.misshapen "usize")

def readSequence (node : Node) : Except TextFault (List Node) :=
  match node with
  | .sequence items => .ok items
  | node => if isLeftOut node then .ok [] else .error (.misshapen "a sequence")

def repeatedName? (names : List String) (given : List (String × Node)) : Option String :=
  names.find? fun name => 1 < given.countP fun m => m.1 == name

def readMapping (d : Document) (title : String) (names : List String) (node : Node) :
    Except TextFault (Members Node TextFault) :=
  match node with
  | .mapping entries => do
    let given ← entries.mapM fun e => do
      let name ← readScalar "field identifier" (d.resolve e.1)
      return (name, d.resolve e.2)
    match repeatedName? names given with
    | some name => throw (.repeatedMember name)
    | none => return { given := given, missing := .missingMember }
  | node =>
    if isLeftOut node then .ok { given := [], missing := .missingMember }
    else .error (.misshapen ("struct " ++ title))

def yamlForm (d : Document) : Form Node TextFault where
  text node := readScalar "a string" (d.resolve node)
  path node := (readScalar "path string" (d.resolve node)).map Path.mk
  boolean node := readTruth (d.resolve node)
  size node := readCount (d.resolve node)
  items node := readSequence (d.resolve node)
  isAbsent node := readAbsence (d.resolve node)
  record title names node := readMapping d title names (d.resolve node)

/-- Reads a configuration in YAML; no document at all is one without members. -/
def parse (text : String) : Except TextFault Config :=
  match Document.parse text.toList with
  | .error fault => .error (.notYaml fault)
  | .ok d => (yamlForm d).config (d.root.getD (.mapping []))

end PawnQuery.Config
