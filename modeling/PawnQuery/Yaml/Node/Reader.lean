import PawnQuery.Yaml.Node.Basic
import PawnQuery.Yaml.Token.Scanner

/-!
# Reading documents

Tokens are put together to nodes.  What is left out, such as the value behind a key, is an empty
plain scalar.  The recursion is bounded by the number of tokens: each step takes one or ends.
-/

namespace PawnQuery.Yaml

structure NodeReader where
  tokens : List Token
  handles : List (String × String) := []
  names : List (String × AnchorId) := []
  nameCount : Nat := 0
  anchors : List (AnchorId × Node) := []
deriving Inhabited

namespace NodeReader

abbrev Taken (α : Type) := Except Fault (α × NodeReader)

def missing : Node := .scalar "" .plain none

def skip (r : NodeReader) : NodeReader := { r with tokens := r.tokens.drop 1 }

def at? (r : NodeReader) (list : List Token) : Bool := r.tokens.head?.any list.contains

/-! ## Properties -/

def name (r : NodeReader) (name : String) : NodeReader × AnchorId :=
  let fresh := !r.names.any fun n => n.1 == name
  ({ r with
      names := (name, r.nameCount) :: r.names
      nameCount := r.nameCount + (if fresh then 1 else 0) },
    r.nameCount)

/-- What a tag stands for; the plain exclamation mark stands for none. -/
def resolveTag (r : NodeReader) (handle suffix : String) : Except Fault (Option String) :=
  if handle.isEmpty then .ok (if suffix == "!" then none else some suffix)
  else
    let usual := [("!", "!"), ("!!", standardTags)]
    match (r.handles ++ usual).find? fun h => h.1 == handle with
    | some h => .ok (some (h.2 ++ suffix))
    | none => .error .unknownHandle

structure Properties where
  anchor : Option AnchorId := none
  tag : Option String := none
  /-- There was a tag, even if it stands for none. -/
  tagged : Bool := false
deriving Inhabited

def takeTag (r : NodeReader) (p : Properties) : Taken Properties :=
  match r.tokens with
  | .tag handle suffix :: rest =>
    (r.resolveTag handle suffix).map fun tag =>
      ({ p with tag := tag, tagged := true }, { r with tokens := rest })
  | _ => .ok (p, r)

def takeAnchor (r : NodeReader) (p : Properties) : Properties × NodeReader :=
  match r.tokens with
  | .anchor text :: rest =>
    let (r, id) := { r with tokens := rest }.name text
    ({ p with anchor := some id }, r)
  | _ => (p, r)

def takeProperties (r : NodeReader) : Taken Properties :=
  match r.tokens with
  | .anchor _ :: _ =>
    let (p, r) := r.takeAnchor {}
    r.takeTag p
  | .tag .. :: _ => (r.takeTag {}).map fun (p, r) => r.takeAnchor p
  | _ => .ok ({}, r)

def keep (p : Properties) (node : Node) (r : NodeReader) : Node × NodeReader :=
  match p.anchor with
  | some id => (node, { r with anchors := (id, node) :: r.anchors })
  | none => (node, r)

/-! ## Nodes -/

mutual

/-- Reads a node.  Block collections can only be where `block` allows them, and a sequence without
indentation only where `indentless` does. -/
def node (block indentless : Bool) : (fuel : Nat) → NodeReader → Taken Node
  | 0, _ => .error .missingContent
  | fuel + 1, r =>
    match r.tokens with
    | .alias text :: rest =>
      match r.names.find? fun n => n.1 == text with
      | some n => .ok (.alias n.2, { r with tokens := rest })
      | none => .error .unknownAnchor
    | _ =>
      r.takeProperties.bind fun (p, r) =>
        match r.tokens with
        | .scalar text style :: rest =>
          .ok (keep p (.scalar text style p.tag) { r with tokens := rest })
        | .flowSequenceStart :: rest =>
          (flowItems true fuel { r with tokens := rest }).map fun (l, r) =>
            keep p (.sequence l) r
        | .flowMappingStart :: rest =>
          (flowEntries true fuel { r with tokens := rest }).map fun (l, r) =>
            keep p (.mapping l) r
        | t :: rest =>
          if indentless && t == .blockEntry then
            (blockItems false fuel r).map fun (l, r) => keep p (.sequence l) r
          else if block && t == .blockSequenceStart then
            (blockItems true fuel { r with tokens := rest }).map fun (l, r) =>
              keep p (.sequence l) r
          else if block && t == .blockMappingStart then
            (blockEntries fuel { r with tokens := rest }).map fun (l, r) => keep p (.mapping l) r
          else if p.anchor.isSome || p.tagged then
            .ok (keep p (.scalar "" .plain p.tag) r)
          else .error .missingContent
        | [] =>
          if p.anchor.isSome || p.tagged then .ok (keep p (.scalar "" .plain p.tag) r)
          else .error .missingContent

def nodeUnless (stop : List Token) (block indentless : Bool) :
    (fuel : Nat) → NodeReader → Taken Node
  | 0, _ => .error .missingContent
  | fuel + 1, r =>
    if r.at? stop then .ok (missing, r) else node block indentless fuel r

/-- Reads the entries of a block sequence; one that is indented has an end of its own. -/
def blockItems (indented : Bool) : (fuel : Nat) → NodeReader → Taken (List Node)
  | 0, _ => .error .missingEntry
  | fuel + 1, r =>
    match r.tokens with
    | .blockEntry :: rest =>
      let stop := if indented then [.blockEntry, .blockEnd] else [.blockEntry, .key, .value, .blockEnd]
      (nodeUnless stop true false fuel { r with tokens := rest }).bind fun (item, r) =>
        (blockItems indented fuel r).map fun (l, r) => (item :: l, r)
    | .blockEnd :: rest =>
      if indented then .ok ([], { r with tokens := rest }) else .ok ([], r)
    | _ => if indented then .error .missingEntry else .ok ([], r)

def blockEntries : (fuel : Nat) → NodeReader → Taken (List (Node × Node))
  | 0, _ => .error .missingKey
  | fuel + 1, r =>
    let stop : List Token := [.key, .value, .blockEnd]
    match r.tokens with
    | .key :: rest =>
      (nodeUnless stop true true fuel { r with tokens := rest }).bind fun (k, r) =>
        let value :=
          match r.tokens with
          | .value :: rest => nodeUnless stop true true fuel { r with tokens := rest }
          | _ => .ok (missing, r)
        value.bind fun (v, r) => (blockEntries fuel r).map fun (l, r) => ((k, v) :: l, r)
    | .blockEnd :: rest => .ok ([], { r with tokens := rest })
    | _ => .error .missingKey

/-- Reads the items of a flow sequence; `first` says that none was read yet.  An item may be a
mapping of one entry without its braces. -/
def flowItems (first : Bool) : (fuel : Nat) → NodeReader → Taken (List Node)
  | 0, _ => .error .missingSeparator
  | fuel + 1, r =>
    match r.tokens with
    | .flowSequenceEnd :: rest => .ok ([], { r with tokens := rest })
    | t :: rest =>
      if !first && t != .flowEntry then .error .missingSeparator
      else
        let r := if first then r else { r with tokens := rest }
        match r.tokens with
        | .flowSequenceEnd :: rest => .ok ([], { r with tokens := rest })
        | .key :: rest =>
          (flowPair fuel { r with tokens := rest }).bind fun (pair, r) =>
            (flowItems false fuel r).map fun (l, r) => (.mapping [pair] :: l, r)
        | _ =>
          (node false false fuel r).bind fun (item, r) =>
            (flowItems false fuel r).map fun (l, r) => (item :: l, r)
    | [] => .error .missingSeparator

/-- Reads an entry that is an item of a flow sequence, behind its key mark.  Whatever comes in
place of a key is passed over. -/
def flowPair : (fuel : Nat) → NodeReader → Taken (Node × Node)
  | 0, _ => .error .missingContent
  | fuel + 1, r =>
    let key :=
      if r.at? [.value, .flowEntry, .flowSequenceEnd] then .ok (missing, r.skip)
      else node false false fuel r
    key.bind fun (k, r) =>
      match r.tokens with
      | .value :: rest =>
        (nodeUnless [.flowEntry, .flowSequenceEnd] false false fuel { r with tokens := rest }).map
          fun (v, r) => ((k, v), r)
      | _ => .ok ((k, missing), r)

def flowEntries (first : Bool) : (fuel : Nat) → NodeReader → Taken (List (Node × Node))
  | 0, _ => .error .missingSeparator
  | fuel + 1, r =>
    match r.tokens with
    | .flowMappingEnd :: rest => .ok ([], { r with tokens := rest })
    | t :: rest =>
      if !first && t != .flowEntry then .error .missingSeparator
      else
        let r := if first then r else { r with tokens := rest }
        match r.tokens with
        | .flowMappingEnd :: rest => .ok ([], { r with tokens := rest })
        | .key :: rest =>
          let stop : List Token := [.value, .flowEntry, .flowMappingEnd]
          (nodeUnless stop false false fuel { r with tokens := rest }).bind fun (k, r) =>
            let value :=
              match r.tokens with
              | .value :: rest =>
                nodeUnless [.flowEntry, .flowMappingEnd] false false fuel { r with tokens := rest }
              | _ => .ok (missing, r)
            value.bind fun (v, r) =>
              (flowEntries false fuel r).map fun (l, r) => ((k, v) :: l, r)
        | _ =>
          (node false false fuel r).bind fun (k, r) =>
            (flowEntries false fuel r).map fun (l, r) => ((k, missing) :: l, r)
    | [] => .error .missingSeparator

end

/-! ## Documents -/

/-- Reads the directives in front of a document; the flag says that there was a version. -/
def takeDirectives (version : Bool) (handles : List (String × String)) :
    List Token → Except Fault (List (String × String) × List Token)
  | .versionDirective major minor :: rest =>
    if version then .error .repeatedDirective
    else if major == 1 && (minor == 1 || minor == 2) then takeDirectives true handles rest
    else .error .unknownVersion
  | .tagDirective handle start :: rest =>
    if handles.any fun h => h.1 == handle then .error .repeatedDirective
    else takeDirectives version (handles ++ [(handle, start)]) rest
  | tokens => .ok (handles, tokens)

def endsDocument : List Token → Bool
  | [] => true
  | .versionDirective .. :: _ | .tagDirective .. :: _ => true
  | .documentStart :: _ | .documentEnd :: _ => true
  | _ => false

def content (r : NodeReader) : Taken Node := node true false (4 * r.tokens.length + 8) r

def document (tokens : List Token) : Except Fault (Document × List Token) :=
  let finish (outcome : Taken Node) : Except Fault (Document × List Token) :=
    outcome.map fun (root, r) => (⟨some root, r.anchors⟩, r.tokens)
  match tokens with
  | [] => .ok ({}, [])
  | .versionDirective .. :: _ | .tagDirective .. :: _ | .documentStart :: _ =>
    (takeDirectives false [] tokens).bind fun (handles, left) =>
      match left with
      | .documentStart :: rest =>
        let r : NodeReader := { tokens := rest, handles := handles }
        finish (if endsDocument rest then .ok (missing, r) else r.content)
      | _ => .error .missingDocumentStart
  | _ => finish (({ tokens := tokens } : NodeReader).content)

end NodeReader

def Document.parse (text : List Char) : Except Fault Document := do
  let tokens ← Token.scan text
  let (d, left) ← NodeReader.document tokens
  if left.all (· == .documentEnd) then return d else throw .severalDocuments

end PawnQuery.Yaml
