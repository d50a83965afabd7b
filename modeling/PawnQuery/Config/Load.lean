import PawnQuery.Config.YamlForm

/-!
# Loading configurations

A configuration is loaded from a file.  A file that is not there can count as the defaults; a file
that is there must be readable and hold a configuration.
-/

namespace PawnQuery.Config

open PawnQuery.Files (FileTree FileFault)

inductive LoadFault where
  | unreadable (reason : FileFault)
  | invalid (fault : TextFault)
deriving DecidableEq, Repr, Inhabited

def LoadFault.message : LoadFault → String
  | .unreadable reason => "IO error: " ++ reason.message
  | .invalid fault => "Configuration error: " ++ fault.message

def load (files : FileTree) (path : Path) : Except LoadFault Config :=
  match files.readText path with
  | .error reason => .error (.unreadable reason)
  | .ok text =>
    match parse text with
    | .error fault => .error (.invalid fault)
    | .ok config => .ok config

/-- Loads a configuration from a file; a missing file means the defaults. -/
def loadOrDefault (files : FileTree) (path : Path) : Except LoadFault Config :=
  match load files path with
  | .error (.unreadable .notFound) => .ok {}
  | outcome => outcome

theorem loadOrDefault_of_notFound {files : FileTree} {path : Path}
    (h : files.readText path = .error .notFound) : loadOrDefault files path = .ok {} := by
  simp [loadOrDefault, load, h]

end PawnQuery.Config
