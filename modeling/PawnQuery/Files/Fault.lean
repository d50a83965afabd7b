/-!
# Failures of the file system

Why a file or directory could not be used, with the wording and number of the operating system.
-/

namespace PawnQuery.Files

inductive FileFault where
  | notFound
  | permissionDenied
  | notADirectory
  | isADirectory
  | notAProgram
  | notText
  /-- An empty path cannot be made absolute. -/
  | emptyPath
  | other (reason : String)
deriving DecidableEq, Repr, Inhabited

def FileFault.message : FileFault → String
  | .notFound => "No such file or directory (os error 2)"
  | .permissionDenied => "Permission denied (os error 13)"
  | .notADirectory => "Not a directory (os error 20)"
  | .isADirectory => "Is a directory (os error 21)"
  | .notAProgram => "Exec format error (os error 8)"
  | .notText => "stream did not contain valid UTF-8"
  | .emptyPath => "cannot make an empty path absolute"
  | .other reason => reason

end PawnQuery.Files
