import PawnQuery.Files.Fault
import PawnQuery.Path.Basic

/-!
# File trees

The part of a file system that a run can see: directories, and files with their text.  A path is
looked up step by step from the working directory; here, unlike in the comparison of paths, two
dots lead to the directory above.
-/

namespace PawnQuery.Files

inductive Entry where
  | directory
  | file (text : String) (executable : Bool)
deriving DecidableEq, Repr, Inhabited

/-- The names that lead from the root of the tree to an entry. -/
abbrev Location := List String

/-- Entries by location; the root is always a directory. -/
structure FileTree where
  entries : List (Location × Entry) := []
  workingDirectory : Path := ⟨"/"⟩
deriving DecidableEq, Repr, Inhabited

namespace FileTree

def entry? (t : FileTree) (location : Location) : Option Entry :=
  if location.isEmpty then some .directory
  else (t.entries.find? fun e => e.1 == location).map (·.2)

/-! ## Looking up -/

/-- Goes one step on from a directory; what stands there may be a file only if it is the last
step. -/
def walkStep (t : FileTree) (location : Location) (piece : String) : Except FileFault Location :=
  match t.entry? location with
  | none => .error .notFound
  | some (.file ..) => .error .notADirectory
  | some .directory =>
    if piece = "" ∨ piece = "." then .ok location
    else if piece = ".." then .ok location.dropLast
    else
      let next := location ++ [piece]
      if (t.entry? next).isSome then .ok next else .error .notFound

def piecesOf (p : Path) : List String :=
  ((Path.pieces p.text.toList).drop 1).map String.ofList

def locate (t : FileTree) (p : Path) : Except FileFault Location :=
  if p.isEmpty then .error .notFound
  else (piecesOf (t.workingDirectory.join p)).foldlM t.walkStep []

def lookup (t : FileTree) (p : Path) : Except FileFault Entry := do
  let location ← t.locate p
  match t.entry? location with
  | some entry => return entry
  | none => throw .notFound

def isFile (t : FileTree) (p : Path) : Bool :=
  match t.lookup p with
  | .ok (.file ..) => true
  | _ => false

def isDirectory (t : FileTree) (p : Path) : Bool :=
  match t.lookup p with
  | .ok .directory => true
  | _ => false

def readText (t : FileTree) (p : Path) : Except FileFault String := do
  match ← t.lookup p with
  | .file text _ => return text
  | .directory => throw .isADirectory

/-! ## Changing -/

def set (t : FileTree) (location : Location) (entry : Entry) : FileTree :=
  { t with entries := (location, entry) :: t.entries.filter fun e => e.1 != location }

/-- The location that a path spells, nothing looked up but two dots. -/
def spelled (t : FileTree) (p : Path) : Location :=
  (piecesOf (t.workingDirectory.join p)).foldl
    (fun location piece =>
      if piece = "" ∨ piece = "." then location
      else if piece = ".." then location.dropLast
      else location ++ [piece])
    []

/-- The tree with a directory at a location and directories at all locations that lead to it. -/
def ensureDirectory (t : FileTree) (location : Location) : FileTree :=
  ((List.range location.length).map fun n => location.take (n + 1)).foldl
    (fun t above => if (t.entry? above).isSome then t else t.set above .directory) t

def addDirectory (t : FileTree) (p : Path) : FileTree :=
  t.ensureDirectory (t.spelled p)

def addFile (t : FileTree) (p : Path) (text : String) (executable : Bool) : FileTree :=
  let location := t.spelled p
  (t.ensureDirectory location.dropLast).set location (.file text executable)

def removeFile (t : FileTree) (p : Path) : FileTree :=
  let location := t.spelled p
  match t.entry? location with
  | some (.file ..) => { t with entries := t.entries.filter fun e => e.1 != location }
  | _ => t

@[simp] theorem entry?_nil (t : FileTree) : t.entry? [] = some .directory := rfl

end FileTree

end PawnQuery.Files
