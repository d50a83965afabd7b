import PawnQuery.Compiler.Backend
import PawnQuery.Context.Basic
import PawnQuery.Workspace.Descriptor

/-!
# Configurations

Where the compiler is, how it is called, and which workspaces are open from the start.  Every part
has a default, and the defaults together are what holds without a configuration.
-/

namespace PawnQuery

open PawnQuery.Json (Value)
open PawnQuery.Report (pathValue natValue)
open PawnQuery.Compiler (Backend SpawnFault)
open PawnQuery.Files (FileTree FileFault)
open PawnQuery.Workspace (Descriptor)

def Config.defaultExecutable : String := "pawncc"

def Config.fileName : String := "pawn-parser.yaml"

structure Config.CompilerSection where
  /-- The directory of the program; empty when it is to be searched for. -/
  directory : Path := ⟨""⟩
  executable : String := Config.defaultExecutable
  /-- Options for every invocation; none means the usual ones. -/
  options : List String := []
deriving DecidableEq, Repr, Inhabited

structure Config where
  compiler : Config.CompilerSection := {}
  workspaceSupport : Bool := true
  outputLimit : Nat := Report.defaultLimit
  workspaces : List Descriptor := []
deriving DecidableEq, Repr, Inhabited

namespace Config

/-! ## The compiler -/

namespace CompilerSection

def effectiveOptions (c : CompilerSection) : List String :=
  if c.options.isEmpty then Compiler.defaultOptions else c.options

def executablePath (c : CompilerSection) : Path := c.directory.joinText c.executable

def backend (c : CompilerSection) : Backend := .ofDirectory c.directory c.executable

end CompilerSection

inductive Defect where
  | unreachable (reason : FileFault)
  | notADirectory (directory : Path)
  | missing (fault : SpawnFault)
deriving DecidableEq, Repr, Inhabited

def Defect.message : Defect → String
  | .unreachable reason => "IO error: " ++ reason.message
  | .notADirectory directory =>
    "Configuration error: compiler path '" ++ directory.text ++ "' is not a directory"
  | .missing fault => fault.message

/-- The path of the program if its directory is one and it is a file. -/
def CompilerSection.validate (c : CompilerSection) (files : FileTree) : Except Defect Path := do
  if !c.directory.isEmpty then
    match files.lookup c.directory with
    | .error reason => throw (.unreachable reason)
    | .ok (.file ..) => throw (.notADirectory c.directory)
    | .ok .directory => pure ()
  if files.isFile c.executablePath then return c.executablePath
  else throw (.missing (.notFound c.executablePath.text Compiler.installHint))

/-! ## Use -/

/-- How contexts invoke the compiler unless their workspace says otherwise. -/
def settings (c : Config) : Context.Settings := ⟨c.compiler.effectiveOptions, c.outputLimit⟩

def toValue (c : Config) : Value :=
  .object
    [("compiler", .object
        [("path", pathValue c.compiler.directory), ("executable", .string c.compiler.executable),
          ("options", .array (c.compiler.options.map .string))]),
      ("workspace-support", .bool c.workspaceSupport),
      ("max-output-bytes", natValue c.outputLimit),
      ("workspaces", .array (c.workspaces.map Descriptor.toValue))]

@[simp] theorem settings_outputLimit (c : Config) : c.settings.outputLimit = c.outputLimit := rfl

end Config

end PawnQuery
