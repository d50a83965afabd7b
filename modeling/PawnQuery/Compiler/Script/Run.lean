import PawnQuery.Compiler.Script.Printing
import PawnQuery.Compiler.Script.Reader
import PawnQuery.Files.Tree

/-!
# Running scripts

A script is run command by command.  It can look at files but changes none; all that is seen of it
is what it writes to its two streams and how it ends.
-/

namespace PawnQuery.Compiler.Script

open PawnQuery.Files (FileTree)

inductive Ending where
  | exit (code : Nat)
  | killed
deriving DecidableEq, Repr, Inhabited

structure State where
  arguments : List String
  bindings : List (String × String) := []
  files : FileTree := {}
  name : String
  output : List UInt8 := []
  diagnostics : List UInt8 := []
  status : Nat := 0
  ending : Option Ending := none
deriving Repr, Inhabited

namespace State

/-! ## Parameters -/

/-- The number of the script; nobody can know it. -/
def ownNumber : String := "$$"

def parameter (s : State) (name : String) : String :=
  match name with
  | "@" | "*" => " ".intercalate s.arguments
  | "#" => toString s.arguments.length
  | "?" => toString s.status
  | "$" => ownNumber
  | "0" => s.name
  | "PWD" => s.files.workingDirectory.text
  | name =>
    match name.toNat? with
    | some n => (s.arguments[n - 1]?).getD ""
    | none => ((s.bindings.find? fun v => v.1 == name).map (·.2)).getD ""

def isBlank (c : Char) : Bool := c == ' ' || c == '\n' || c == '\t'

def splitBlanks (text : String) : List String :=
  ((text.toList.splitBy fun a b => isBlank a == isBlank b).filter fun run => !run.all isBlank).map
    String.ofList

/-- Words under construction: the finished ones, the latest first, and the one under way. -/
structure Expansion where
  finished : List String := []
  current : Option String := none

namespace Expansion

def add (e : Expansion) (text : String) : Expansion :=
  { e with current := some (e.current.getD "" ++ text) }

/-- Adds words of which the first continues the word under way. -/
def addAll (e : Expansion) : List String → Expansion
  | [] => e
  | [w] => e.add w
  | w :: rest => addAll ⟨(e.current.getD "" ++ w) :: e.finished, none⟩ rest

def words (e : Expansion) : List String := (e.current.toList ++ e.finished).reverse

end Expansion

def expandPart (s : State) (e : Expansion) : Part → Expansion
  | .text t => e.add t
  | .parameter "@" _ true => e.addAll s.arguments
  | .parameter "@" _ false => e.addAll (s.arguments.flatMap splitBlanks)
  | .parameter name trim true => e.add (trim.apply (s.parameter name))
  | .parameter name trim false => e.addAll (splitBlanks (trim.apply (s.parameter name)))

/-- The words that a word stands for; one in quotes stands for at least one, unless it holds
nothing but all arguments. -/
def expand (s : State) (w : Word) : List String :=
  let e := w.parts.foldl s.expandPart {}
  if e.current.isNone && w.quoted && w != allArguments then (e.add "").words else e.words

/-! ## Simple commands -/

/-- Where what is written to the two streams goes; none is nowhere. -/
structure Destinations where
  output : Option Stream := some .output
  diagnostics : Option Stream := some .diagnostics

namespace Destinations

def of (d : Destinations) : Stream → Option Stream
  | .output => d.output
  | .diagnostics => d.diagnostics

def set (d : Destinations) (source : Stream) (target : Option Stream) : Destinations :=
  match source with
  | .output => { d with output := target }
  | .diagnostics => { d with diagnostics := target }

def redirect (d : Destinations) : Redirection → Destinations
  | .join source target => d.set source (d.of target)
  | .discard source => d.set source none
  | .here _ => d

end Destinations

def write (s : State) (redirections : List Redirection) (stream : Stream) (bytes : List UInt8) :
    State :=
  match (redirections.foldl Destinations.redirect {}).of stream with
  | some .output => { s with output := s.output ++ bytes }
  | some .diagnostics => { s with diagnostics := s.diagnostics ++ bytes }
  | none => s

def assignment? (w : Word) : Option (String × List Part) :=
  match w.parts with
  | .text t :: more =>
    let name := t.toList.takeWhile isNameChar
    match t.toList.drop name.length with
    | '=' :: rest =>
      if name.isEmpty then none
      else some (String.ofList name, .text (String.ofList rest) :: more)
    | _ => none
  | _ => none

def assign (s : State) (name : String) (parts : List Part) : State :=
  { s with bindings := (name, " ".intercalate (s.expand ⟨parts, true⟩)) :: s.bindings }

def isFatal (arguments : List String) : Bool :=
  arguments.contains ownNumber && !arguments.contains "-0"

def holds (s : State) : List String → Bool
  | [a, "=", b] => a == b
  | [a, "!=", b] => a != b
  | [a, "-eq", b] => a.toNat? == b.toNat?
  | [a, "-ne", b] => a.toNat? != b.toNat?
  | [a, "-gt", b] => (b.toNat?.getD 0) < (a.toNat?.getD 0)
  | [a, "-ge", b] => (b.toNat?.getD 0) ≤ (a.toNat?.getD 0)
  | [a, "-lt", b] => (a.toNat?.getD 0) < (b.toNat?.getD 0)
  | [a, "-le", b] => (a.toNat?.getD 0) ≤ (b.toNat?.getD 0)
  | ["-n", a] => !a.isEmpty
  | ["-z", a] => a.isEmpty
  | ["-f", a] => s.files.isFile ⟨a⟩
  | ["-d", a] => s.files.isDirectory ⟨a⟩
  | ["-e", a] => s.files.isFile ⟨a⟩ || s.files.isDirectory ⟨a⟩
  | ["!", a] => a.isEmpty
  | [a] => !a.isEmpty
  | _ => false

/-- Writes the texts of files, or what is to be read if there are none. -/
def writeFiles (s : State) (redirections : List Redirection) (names : List String) : State :=
  let input := String.join (redirections.map fun
    | .here text => text
    | _ => "")
  let one (s : State) (name : String) : State :=
    if name = "-" then s.write redirections .output (bytesOf input)
    else
      match s.files.readText ⟨name⟩ with
      | .ok text => s.write redirections .output (bytesOf text)
      | .error reason =>
        let wording := (reason.message.splitOn " (").headD ""
        { s.write redirections .diagnostics
            (bytesOf ("cat: " ++ name ++ ": " ++ wording ++ "\n")) with status := 1 }
  (if names.isEmpty then ["-"] else names).foldl one { s with status := 0 }

def runWords (s : State) (redirections : List Redirection) : List String → State
  | [] => { s with status := 0 }
  | "exit" :: rest =>
    { s with ending := some (.exit ((rest.head?.bind (·.toNat?)).getD s.status % 256)) }
  | "kill" :: rest => if isFatal rest then { s with ending := some .killed } else s
  | "echo" :: rest => { s.write redirections .output (echoBytes rest) with status := 0 }
  | "printf" :: rest => { s.write redirections .output (formatBytes rest) with status := 0 }
  | "pwd" :: _ =>
    { s.write redirections .output (bytesOf (s.files.workingDirectory.text ++ "\n")) with
      status := 0 }
  | "cat" :: names => s.writeFiles redirections names
  | ":" :: _ | "true" :: _ | "set" :: _ | "exec" :: [] | "sleep" :: _ | "export" :: _ =>
    { s with status := 0 }
  | "false" :: _ | "read" :: _ => { s with status := 1 }
  | "shift" :: rest =>
    let n := (rest.head?.bind (·.toNat?)).getD 1
    { s with arguments := s.arguments.drop n, status := 0 }
  | "test" :: rest => { s with status := if s.holds rest then 0 else 1 }
  | "[" :: rest => { s with status := if s.holds rest.dropLast then 0 else 1 }
  | command :: _ =>
    { s.write redirections .diagnostics (bytesOf (s.name ++ ": " ++ command ++ ": not found\n"))
      with status := 127 }

def runSimple (s : State) (words : List Word) (redirections : List Redirection) : State :=
  let assignments := (words.takeWhile fun w => (assignment? w).isSome).filterMap assignment?
  let command := words.dropWhile fun w => (assignment? w).isSome
  let s := assignments.foldl (fun s (name, parts) => s.assign name parts) s
  s.runWords redirections (command.flatMap s.expand)

/-! ## Lists, choices and loops -/

mutual

def run : (fuel : Nat) → List Command → State → State
  | 0, _, s => s
  | _, [], s => s
  | fuel + 1, c :: rest, s =>
    let s := runCommand fuel c s
    if s.ending.isSome then s else run fuel rest s

def runCommand : (fuel : Nat) → Command → State → State
  | 0, _, s => s
  | fuel + 1, c, s =>
    match c with
    | .simple words redirections => s.runSimple words redirections
    | .each name values body => runEach fuel name (values.flatMap s.expand) body s
    | .choose condition thenBody elseBody =>
      let s := run fuel condition s
      if s.ending.isSome then s
      else if s.status = 0 then run fuel thenBody s
      else run fuel elseBody { s with status := 0 }
    | .both first second =>
      let s := runCommand fuel first s
      if s.ending.isSome || s.status != 0 then s else runCommand fuel second s
    | .either first second =>
      let s := runCommand fuel first s
      if s.ending.isSome || s.status == 0 then s else runCommand fuel second s

def runEach : (fuel : Nat) → String → List String → List Command → State → State
  | 0, _, _, _, s => s
  | _, _, [], _, s => s
  | fuel + 1, name, v :: rest, body, s =>
    let s := run fuel body { s with bindings := (name, v) :: s.bindings }
    if s.ending.isSome then s else runEach fuel name rest body s

end

def result (s : State) : Ending := s.ending.getD (.exit s.status)

end State

def execute (text name : String) (files : FileTree) (arguments : List String) : State :=
  let commands := parse text
  let size := text.length + arguments.length + 16
  State.run (size * size) commands { arguments := arguments, files := files, name := name }

end PawnQuery.Compiler.Script
