import PawnQuery.Path.Basic
import PawnQuery.Report.Kind

/-!
# Requests on the command line

A command line asks for one of five commands.  The options before and behind the command are the
same, and those behind it win.
-/

namespace PawnQuery.CommandLine

open PawnQuery.Report (Category)

def programName : String := "pawn-parser"

def version : String := "0.1.0"

/-! ## Commands -/

/-- The commands, without what they are about. -/
inductive Verb where
  | resolve
  | symbols
  | diagnostics
  | contexts
  | checkCompiler
deriving DecidableEq, Repr, Inhabited

namespace Verb

def all : List Verb := [.resolve, .symbols, .diagnostics, .contexts, .checkCompiler]

def name : Verb → String
  | .resolve => "resolve"
  | .symbols => "symbols"
  | .diagnostics => "diagnostics"
  | .contexts => "contexts"
  | .checkCompiler => "check-compiler"

def ofName? (name : String) : Option Verb := all.find? fun v => v.name == name

@[simp] theorem mem_all (v : Verb) : v ∈ all := by
  cases v <;> decide

@[simp] theorem ofName?_name (v : Verb) : ofName? v.name = some v := by
  cases v <;> decide

end Verb

inductive Command where
  | resolve (paths : List Path)
  | symbols (path : Path) (only : Option Category)
  | diagnostics (path : Path)
  | contexts
  | checkCompiler
deriving DecidableEq, Repr, Inhabited

def Command.verb : Command → Verb
  | .resolve _ => .resolve
  | .symbols .. => .symbols
  | .diagnostics _ => .diagnostics
  | .contexts => .contexts
  | .checkCompiler => .checkCompiler

/-! ## Options -/

structure Options where
  /-- The configuration to load in place of the usual one. -/
  config : Option Path := none
  workspaces : List Path := []
  /-- A report that answers every invocation. -/
  replay : Option Path := none
  /-- Every file is on its own. -/
  noWorkspaceSupport : Bool := false
  json : Bool := false
  verbosity : Nat := 0
deriving DecidableEq, Repr, Inhabited

namespace Options

/-- The first options, completed by the second.  Lists are not joined, and numbers not added. -/
def orElse (first second : Options) : Options :=
  { config := first.config <|> second.config
    workspaces := if first.workspaces.isEmpty then second.workspaces else first.workspaces
    replay := first.replay <|> second.replay
    noWorkspaceSupport := first.noWorkspaceSupport || second.noWorkspaceSupport
    json := first.json || second.json
    verbosity := if first.verbosity = 0 then second.verbosity else first.verbosity }

@[simp] theorem empty_orElse (o : Options) : orElse {} o = o := by
  simp [orElse]

@[simp] theorem orElse_empty (o : Options) : orElse o {} = o := by
  rcases o with ⟨config, workspaces, replay, _, _, verbosity⟩
  cases config <;> cases workspaces <;> cases replay <;> cases verbosity <;> simp [orElse]

def logLevel (o : Options) : String :=
  match o.verbosity with
  | 0 => "warn"
  | 1 => "info"
  | 2 => "debug"
  | _ => "trace"

def logFilter (o : Options) : String :=
  ",".intercalate (["pawn_parser", "pawn_records"].map fun part => part ++ "=" ++ o.logLevel)

end Options

structure Request where
  options : Options := {}
  command : Command
deriving DecidableEq, Repr, Inhabited

end PawnQuery.CommandLine
