import PawnQuery.CommandLine.Fault

/-!
# Reading command lines

Arguments are read from left to right, first those of the program, then, behind the word that asks
for a command, those of the command.  An option may stand for itself or take a value: the rest of
its argument or the next argument.  Behind two hyphens nothing is an option any more.

A value that is still being collected takes effect only when the next option, or the end, shows that
it is complete; what is wrong with it comes to light only then.  An argument that nothing can stand
for is reported at once.
-/

namespace PawnQuery.CommandLine

open PawnQuery.Report (Category)

/-! ## Arguments -/

/-- What a value can be given to. -/
inductive Slot where
  | config
  | workspace
  | replay
  | kind
  | path
deriving DecidableEq, Repr, Inhabited

def Slot.name : Slot → String
  | .config => "--config"
  | .workspace => "--workspace"
  | .replay => "--replay"
  | .kind => "--kind"
  | .path => "<PATH>"

inductive Switch where
  | noWorkspaceSupport
  | json
  | verbose
  | help
  | version
deriving DecidableEq, Repr, Inhabited

def Switch.name : Switch → String
  | .noWorkspaceSupport => "--no-workspace-support"
  | .json => "--json"
  | .verbose => "--verbose"
  | .help => "--help"
  | .version => "--version"

inductive Flag where
  | takesValue (slot : Slot)
  | standsAlone (switch : Switch)
deriving DecidableEq, Repr, Inhabited

/-- Where an argument stands. -/
inductive Level where
  | program
  | command (verb : Verb)
deriving DecidableEq, Repr, Inhabited

namespace Level

def title : Level → String
  | .program => programName
  | .command verb => programName ++ "-" ++ verb.name

def optionOfWord? (level : Level) (word : String) : Option Flag :=
  match word with
  | "config" => some (.takesValue .config)
  | "workspace" => some (.takesValue .workspace)
  | "replay" => some (.takesValue .replay)
  | "kind" => if level = .command .symbols then some (.takesValue .kind) else none
  | "no-workspace-support" => some (.standsAlone .noWorkspaceSupport)
  | "json" => some (.standsAlone .json)
  | "verbose" => some (.standsAlone .verbose)
  | "help" => some (.standsAlone .help)
  | "version" => some (.standsAlone .version)
  | _ => none

def optionOfLetter? (level : Level) (letter : Char) : Option Flag :=
  match letter with
  | 'w' => some (.takesValue .workspace)
  | 'k' => if level = .command .symbols then some (.takesValue .kind) else none
  | 'v' => some (.standsAlone .verbose)
  | 'h' => some (.standsAlone .help)
  | 'V' => some (.standsAlone .version)
  | _ => none

end Level

/-! ## What was given -/

structure Given where
  options : Options := {}
  kind : Option Category := none
  paths : List Path := []
deriving DecidableEq, Repr, Inhabited

/-- The path that a value stands for; an empty one is none. -/
def pathOfValue (slot : Slot) (value : String) : Except UsageFault Path :=
  if value.isEmpty then .error (.invalidValue slot.name value) else .ok ⟨value⟩

def categoryOfValue (slot : Slot) (value : String) : Except UsageFault Category :=
  match Category.ofName? value with
  | some c => .ok c
  | none => .error (.invalidValue slot.name value)

def fillOnce (slot : Slot) (old : Option α) (new : Except UsageFault α) :
    Except UsageFault (Option α) :=
  if old.isSome then .error (.repeated slot.name) else new.map some

def switchOnce (switch : Switch) (old : Bool) : Except UsageFault Bool :=
  if old then .error (.repeated switch.name) else .ok true

/-- The most times that an option is counted. -/
def mostVerbose : Nat := 255

namespace Given

def fill (g : Given) (slot : Slot) (values : List String) : Except UsageFault Given :=
  match values with
  | [] => .error (.valueMissing slot.name)
  | value :: _ =>
    match slot with
    | .config =>
      (fillOnce slot g.options.config (pathOfValue slot value)).map fun path =>
        { g with options := { g.options with config := path } }
    | .workspace =>
      (pathOfValue slot value).map fun path =>
        { g with options := { g.options with workspaces := g.options.workspaces ++ [path] } }
    | .replay =>
      (fillOnce slot g.options.replay (pathOfValue slot value)).map fun path =>
        { g with options := { g.options with replay := path } }
    | .kind =>
      (fillOnce slot g.kind (categoryOfValue slot value)).map fun kind => { g with kind := kind }
    | .path =>
      (values.mapM (pathOfValue slot)).map fun paths => { g with paths := g.paths ++ paths }

def flip (g : Given) (level : Level) (switch : Switch) : Except UsageFault Given :=
  match switch with
  | .noWorkspaceSupport =>
    (switchOnce switch g.options.noWorkspaceSupport).map fun b =>
      { g with options := { g.options with noWorkspaceSupport := b } }
  | .json =>
    (switchOnce switch g.options.json).map fun b =>
      { g with options := { g.options with json := b } }
  | .verbose =>
    .ok { g with
      options := { g.options with verbosity := min (g.options.verbosity + 1) mostVerbose } }
  | .help => .error .help
  | .version => .error (.version level.title)

end Given

/-! ## Reading one level -/

structure Reading where
  given : Given := {}
  /-- A slot whose values are still being collected. -/
  pending : Option (Slot × List String) := none
  /-- Two hyphens have been read. -/
  literal : Bool := false
deriving DecidableEq, Repr, Inhabited

/-- A word is the name of a command, help included. -/
def isCommandWord (word : String) : Bool := (Verb.ofName? word).isSome || word == "help"

namespace Reading

def awaitsValue (r : Reading) : Bool :=
  match r.pending with
  | some (_, []) => true
  | _ => false

def isOpen (r : Reading) : Bool := !r.literal && !r.awaitsValue

def commit (r : Reading) : Except UsageFault Reading :=
  match r.pending with
  | none => .ok r
  | some (slot, values) =>
    (r.given.fill slot values).map fun given => { r with given := given, pending := none }

def flip (r : Reading) (level : Level) (switch : Switch) : Except UsageFault Reading := do
  let r ← r.commit
  let given ← r.given.flip level switch
  return { r with given := given }

/-- Gives a slot the value in the same argument, or lets it wait for the next argument. -/
def open? (r : Reading) (slot : Slot) (value : Option String) : Except UsageFault Reading := do
  let r ← r.commit
  match value with
  | some value =>
    let given ← r.given.fill slot [value]
    return { r with given := given }
  | none => return { r with pending := some (slot, []) }

def splitValue (word : List Char) : String × Option String :=
  let name := String.ofList (word.takeWhile (· != '='))
  match word.dropWhile (· != '=') with
  | _ :: value => (name, some (String.ofList value))
  | [] => (name, none)

def readWord (r : Reading) (level : Level) (word : List Char) : Except UsageFault Reading :=
  let (name, value) := splitValue word
  match level.optionOfWord? name, value with
  | none, _ => .error (.unknownArgument ("--" ++ name))
  | some (.standsAlone switch), some _ => .error (.superfluousValue switch.name)
  | some (.standsAlone switch), none => r.flip level switch
  | some (.takesValue slot), value => r.open? slot value

def attachedValue : List Char → Option String
  | [] => none
  | '=' :: value => some (String.ofList value)
  | value => some (String.ofList value)

/-- Reads letters behind one hyphen; one that takes a value takes the rest. -/
def readLetters (r : Reading) (level : Level) : List Char → Except UsageFault Reading
  | [] => .ok r
  | letter :: rest =>
    match level.optionOfLetter? letter with
    | none => .error (.unknownArgument (String.ofList ['-', letter]))
    | some (.takesValue slot) => r.open? slot (attachedValue rest)
    | some (.standsAlone switch) =>
      match r.flip level switch with
      | .ok r => r.readLetters level rest
      | .error fault => .error fault

def pendingPaths (r : Reading) : List String :=
  match r.pending with
  | some (.path, values) => values
  | _ => []

def takesPath (r : Reading) : Level → Bool
  | .command .resolve => true
  | .command .symbols | .command .diagnostics => r.given.paths.isEmpty && r.pendingPaths.isEmpty
  | _ => false

def strayFault (r : Reading) (level : Level) (argument : String) : UsageFault :=
  match level with
  | .command _ => .unknownArgument argument
  | .program =>
    if r.literal && isCommandWord argument then .unknownArgument argument
    else .unknownCommand argument

def readPath (r : Reading) (level : Level) (argument : String) : Except UsageFault Reading :=
  if r.takesPath level then
    if r.pendingPaths.isEmpty then
      r.commit.map fun r => { r with pending := some (.path, [argument]) }
    else .ok { r with pending := some (.path, r.pendingPaths ++ [argument]) }
  else .error (r.strayFault level argument)

def read (r : Reading) (level : Level) (argument : String) : Except UsageFault Reading :=
  if r.literal then r.readPath level argument
  else
    match argument.toList with
    | ['-', '-'] => .ok { r with literal := true }
    | '-' :: '-' :: word => r.readWord level word
    | '-' :: letter :: letters => r.readLetters level (letter :: letters)
    | _ =>
      match r.pending with
      | some (slot, []) => .ok { r with pending := some (slot, [argument]) }
      | _ => r.readPath level argument

end Reading

/-! ## Reading the whole -/

def Verb.command (verb : Verb) (g : Given) : Except UsageFault Command :=
  match verb, g.paths with
  | .resolve, path :: more => .ok (.resolve (path :: more))
  | .symbols, path :: _ => .ok (.symbols path g.kind)
  | .diagnostics, path :: _ => .ok (.diagnostics path)
  | .contexts, _ => .ok .contexts
  | .checkCompiler, _ => .ok .checkCompiler
  | _, [] => .error (.argumentMissing Slot.path.name)

def Verb.read (verb : Verb) (arguments : List String) : Except UsageFault Request := do
  let r ← arguments.foldlM (fun r a => r.read (.command verb) a) ({} : Reading)
  let r ← r.commit
  let command ← verb.command r.given
  return ⟨r.given.options, command⟩

/-- What the request for help asks about: nothing, one command, or help itself. -/
def helpFault : List String → UsageFault
  | [] => .help
  | word :: rest =>
    if isCommandWord word then
      match rest with
      | [] => .help
      | stray :: _ => .unknownCommand stray
    else .unknownCommand word

def Reading.finish (r : Reading) : List String → Except UsageFault Request
  | [] => do
    let r ← r.commit
    .error (if r.given = {} then .nothingGiven else .commandMissing)
  | argument :: rest =>
    if r.isOpen && argument == "help" then .error (helpFault rest)
    else
      match r.isOpen, Verb.ofName? argument with
      | true, some verb => do
        let request ← verb.read rest
        let r ← r.commit
        return { request with options := request.options.orElse r.given.options }
      | _, _ =>
        match r.read .program argument with
        | .ok r => r.finish rest
        | .error fault => .error fault

def Request.ofArguments (arguments : List String) : Except UsageFault Request :=
  ({} : Reading).finish arguments

@[simp] theorem Request.ofArguments_nil : Request.ofArguments [] = .error .nothingGiven := rfl

end PawnQuery.CommandLine
