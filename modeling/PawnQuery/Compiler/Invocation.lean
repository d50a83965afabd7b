import PawnQuery.Path.Basic

/-!
# Invocations of the compiler

One run of the compiler: which file it compiles, in which directory it runs, and with which flags.
The flag that asks for a report always comes last.
-/

namespace PawnQuery.Compiler

/-- The flag that makes the compiler report what it finds. -/
def reportFlag : String := "-R"

def defaultOptions : List String := ["-d0", "-O3"]

structure Invocation where
  target : Path
  workingDirectory : Path
  flags : List String
deriving DecidableEq, Repr, Inhabited

namespace Invocation

/-- The run that compiles `target` from the directory it lies in. -/
def ofTarget (target : Path) (options : List String) : Invocation :=
  ⟨target, target.parent?.getD target, options ++ [reportFlag]⟩

def arguments (i : Invocation) : List String := i.target.text :: i.flags

@[simp] theorem target_ofTarget (target : Path) (options : List String) :
    (ofTarget target options).target = target := rfl

@[simp] theorem flags_ofTarget (target : Path) (options : List String) :
    (ofTarget target options).flags = options ++ [reportFlag] := rfl

end Invocation

end PawnQuery.Compiler
