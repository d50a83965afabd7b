import PawnQuery.Path.Basic

/-!
# Entry points

A workspace is entered at its folder and at its main file.  A path that names an entry point
belongs to the workspace whatever the compiler says about it.
-/

namespace PawnQuery.Registry

def liesDirectlyIn (path root : Path) (file : String) : Bool :=
  path.parent?.any (fun p => p.same root) && path.fileName? == some file

/-- The path is the folder of a workspace or its main file. -/
def isEntryPoint (path root : Path) (mainFile : Option String) : Bool :=
  path.same root ||
    mainFile.any fun file => liesDirectlyIn path root file || path.same (root.joinText file)

@[simp] theorem isEntryPoint_root (root : Path) (mainFile : Option String) :
    isEntryPoint root root mainFile = true := by
  simp [isEntryPoint, Path.same]

@[simp] theorem isEntryPoint_mainFile (root : Path) (file : String) :
    isEntryPoint (root.joinText file) root (some file) = true := by
  simp [isEntryPoint, Path.same]

end PawnQuery.Registry
