/-!
# Scripts

A compiler may be a shell script.  Scripts that stand in for a compiler are made of simple commands
with quoting and parameters, of lists, choices and loops.
-/

namespace PawnQuery.Compiler.Script

inductive Trim where
  | nothing
  | throughFirst (mark : String)
  | throughLast (mark : String)
  | fromFirst (mark : String)
  | fromLast (mark : String)
deriving DecidableEq, Repr, Inhabited

inductive Part where
  | text (text : String)
  /-- The value of a parameter; one in quotes is not split at blanks. -/
  | parameter (name : String) (trim : Trim) (quoted : Bool)
deriving DecidableEq, Repr, Inhabited

/-- A word before parameters are put in; one in quotes is kept even when it is empty. -/
structure Word where
  parts : List Part := []
  quoted : Bool := false
deriving DecidableEq, Repr, Inhabited

inductive Stream where
  | output
  | diagnostics
deriving DecidableEq, Repr, Inhabited

/-- Where a command reads from and writes to instead of the usual places. -/
inductive Redirection where
  | join (source target : Stream)
  | discard (source : Stream)
  | here (text : String)
deriving DecidableEq, Repr, Inhabited

inductive Token where
  | word (word : Word)
  | redirection (r : Redirection)
  /-- A semicolon or the end of a line. -/
  | stop
  | andThen
  | orElse
deriving DecidableEq, Repr, Inhabited

inductive Command where
  | simple (words : List Word) (redirections : List Redirection)
  | each (name : String) (values : List Word) (body : List Command)
  | choose (condition thenBody elseBody : List Command)
  /-- The second command runs if the first one went well. -/
  | both (first second : Command)
  /-- The second command runs if the first one failed. -/
  | either (first second : Command)
deriving Repr, Inhabited

def Token.plain? : Token → Option String
  | .word ⟨[.text s], false⟩ => some s
  | _ => none

/-! ## Leaving out -/

def splitFirst (mark : List Char) (before : List Char) : List Char → Option (List Char × List Char)
  | [] => if mark.isEmpty then some (before.reverse, []) else none
  | c :: rest =>
    if mark.isPrefixOf (c :: rest) then some (before.reverse, (c :: rest).drop mark.length)
    else splitFirst mark (c :: before) rest

def splitLast (mark text : List Char) : Option (List Char × List Char) :=
  (splitFirst mark.reverse [] text.reverse).map fun (after, before) =>
    (before.reverse, after.reverse)

/-- A text with a part left out; all of it if the mark does not occur. -/
def Trim.apply (t : Trim) (text : String) : String :=
  let chars := text.toList
  let kept : Option (List Char) :=
    match t with
    | .nothing => none
    | .throughFirst mark => (splitFirst mark.toList [] chars).map (·.2)
    | .throughLast mark => (splitLast mark.toList chars).map (·.2)
    | .fromFirst mark => (splitFirst mark.toList [] chars).map (·.1)
    | .fromLast mark => (splitLast mark.toList chars).map (·.1)
  (kept.map String.ofList).getD text

@[simp] theorem Trim.apply_nothing (text : String) : Trim.nothing.apply text = text := rfl

end PawnQuery.Compiler.Script
