import PawnQuery.Files.Tree
import PawnQuery.Report.Record

/-!
# Workspaces

A workspace is a folder whose scripts are compiled through one main file.  When no main file is
configured one is looked for: a file in the folder called like the folder, or else `main`, with
one of the extensions of scripts.
-/

namespace PawnQuery.Workspace

open PawnQuery.Files (FileTree)
open PawnQuery.Report (optionalMember pathValue)
open PawnQuery.Json (Value Member)

def scriptExtensions : List String := ["pwn", "p", "inc"]

def fallbackName : String := "main"

/-- The names that a main file can have without being configured, best first. -/
def mainFileCandidates (root : Path) : List String :=
  (root.fileName?.toList ++ [fallbackName]).flatMap fun name =>
    scriptExtensions.map fun extension => name ++ "." ++ extension

/-- The first candidate that is a file in the folder, or the empty text. -/
def defaultMainFile (files : FileTree) (root : Path) : String :=
  ((mainFileCandidates root).find? fun name => files.isFile (root.joinText name)).getD ""

structure Descriptor where
  root : Path
  name : Option String := none
  mainFile : Option String := none
  /-- Compiler options in place of the general ones. -/
  options : Option (List String) := none
deriving DecidableEq, Repr, Inhabited

namespace Descriptor

/-- The main file to compile: the configured one unless it is empty, else the one found. -/
def effectiveMainFile (d : Descriptor) (files : FileTree) : String :=
  match d.mainFile with
  | some file => if file.isEmpty then defaultMainFile files d.root else file
  | none => defaultMainFile files d.root

def toValue (d : Descriptor) : Value :=
  .object <|
    [("root", pathValue d.root)] ++ optionalMember "name" .string d.name ++
      optionalMember "main-file" .string d.mainFile ++
      optionalMember "options" (fun l => .array (l.map .string)) d.options

end Descriptor

end PawnQuery.Workspace
