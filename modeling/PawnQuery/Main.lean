import PawnQuery.CommandLine.Reader
import PawnQuery.CommandLine.Run
import Std.Time.DateTime.Timestamp

/-!
# The program

Reads the command line, looks at the files that it leads to, runs the command, and prints.
-/

namespace PawnQuery.CommandLine

open PawnQuery.Files (FileTree)

def scriptMark : String := "#!"

/-- The files with what stands at a path on the disk, seen from a directory. -/
def look (files : FileTree) (path : Path) : IO FileTree := do
  if path.isEmpty then return files
  let place := (← IO.currentDir) / path.text
  if ← place.isDir then return files.addDirectory path
  else if ← place.pathExists then
    try
      let text ← IO.FS.readFile place
      return files.addFile path text (text.startsWith scriptMark)
    catch _ => return files.addFile path "" false
  else return files

def currentTime : IO Context.Timestamp := do
  let now ← Std.Time.Timestamp.now
  let seconds := now.toSecondsSinceUnixEpoch.val
  let nanoseconds := now.toNanosecondsSinceUnixEpoch.val
  return ⟨seconds, (nanoseconds - seconds * 1000000000).toNat⟩

def currentScreen : IO Output.Screen := do
  let columns := (← IO.getEnv "COLUMNS").bind (·.toNat?)
  let wish : Output.ColorWish := ⟨← IO.getEnv "NO_COLOR", ← IO.getEnv "PAWN_PARSER_COLOR"⟩
  return { width := columns.getD 80, colors := wish.wanted }

def Request.surroundings (r : Request) : IO Surroundings := do
  let directory : Path := ⟨(← IO.currentDir).toString⟩
  let start : FileTree := ({ workingDirectory := directory } : FileTree).addDirectory directory
  let read ← r.options.filesRead.foldlM look start
  let seen ←
    match r.options.loadConfig read with
    | .ok config => (r.pathsSeen config read).foldlM look read
    | .error _ => pure read
  return { files := seen, now := ← currentTime, screen := ← currentScreen }

end PawnQuery.CommandLine

open PawnQuery.CommandLine in
def main (arguments : List String) : IO UInt32 := do
  match Request.ofArguments arguments with
  | .error fault =>
    if fault.isAnswer then IO.print fault.message else IO.eprint fault.message
    return UInt32.ofNat fault.exitCode
  | .ok request =>
    match request.run (← request.surroundings) with
    | .ok output =>
      IO.print output
      return 0
    | .error fault =>
      IO.eprintln ("Error: " ++ fault.message)
      return 1
