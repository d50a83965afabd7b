import PawnQuery.Compiler.Replay

/-!
# Instructions to a replaying compiler

What a replaying compiler can be told from outside, as data.  A gate that is released is not among
them: it also sets invocations free, which the compiler alone cannot do.
-/

namespace PawnQuery.Compiler

/-- What a replaying compiler is told to do from now on. -/
inductive Instruction where
  | record (target : Path) (recording : Recording)
  | recordStream (target : String) (recording : Recording)
  | setFallback (output : String)
  | refuse (reason : String)
  | accept
  | hold
deriving DecidableEq, Repr, Inhabited

def Replay.follow (r : Replay) : Instruction → Replay
  | .record target recording => r.record target recording
  | .recordStream target recording => r.recordStream target recording
  | .setFallback output => r.setFallback output
  | .refuse reason => r.refuse reason
  | .accept => r.accept
  | .hold => r.hold.1

end PawnQuery.Compiler
