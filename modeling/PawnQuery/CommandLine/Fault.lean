import PawnQuery.CommandLine.Request

/-!
# Command lines that ask for nothing to be run

A command line can be wrong, or it can ask for help or for the version; either way no command is
run.
-/

namespace PawnQuery.CommandLine

/-- Why a command line does not lead to a command. -/
inductive UsageFault where
  | help
  | version (title : String)
  | nothingGiven
  | commandMissing
  | unknownCommand (word : String)
  | unknownArgument (argument : String)
  | superfluousValue (option : String)
  | repeated (option : String)
  | valueMissing (option : String)
  | invalidValue (option value : String)
  | argumentMissing (argument : String)
deriving DecidableEq, Repr, Inhabited

namespace UsageFault

/-- Whoever asks for help or for the version gets what was asked for. -/
def isAnswer : UsageFault → Bool
  | .help | .version _ => true
  | _ => false

def exitCode (fault : UsageFault) : Nat := if fault.isAnswer then 0 else 2

def versionText (title : String) : String := title ++ " " ++ CommandLine.version ++ "\n"

def helpText : String :=
  "Usage: " ++ programName ++ " [OPTIONS] <COMMAND>\n\nCommands:\n" ++
    "  resolve <PATHS>...    Show the context key of each file\n" ++
    "  symbols <PATH>        List symbols declared in a file's context\n" ++
    "  diagnostics <PATH>    List compiler diagnostics for a file's context\n" ++
    "  contexts              List registered contexts\n" ++
    "  check-compiler        Verify that the configured compiler exists\n" ++
    "  help                  Print this message\n\nOptions:\n" ++
    "      --config <FILE>           Configuration file\n" ++
    "  -w, --workspace <DIR>         Register a workspace folder (repeatable)\n" ++
    "      --replay <FILE>           Replay a recorded report instead of running the compiler\n" ++
    "      --no-workspace-support    Treat every file as standalone, ignoring workspaces\n" ++
    "      --json                    Output in JSON format for programmatic use\n" ++
    "  -v, --verbose...              Increase log verbosity\n" ++
    "  -k, --kind <KIND>             Only list symbols of this kind (symbols)\n" ++
    "  -h, --help                    Print help\n" ++
    "  -V, --version                 Print version\n"

def message : UsageFault → String
  | .help | .nothingGiven => helpText
  | .version title => versionText title
  | .commandMissing => "error: a command is required\n"
  | .unknownCommand word => "error: unrecognized command '" ++ word ++ "'\n"
  | .unknownArgument argument => "error: unexpected argument '" ++ argument ++ "' found\n"
  | .superfluousValue option => "error: '" ++ option ++ "' takes no value\n"
  | .repeated option => "error: '" ++ option ++ "' cannot be used more than once\n"
  | .valueMissing option => "error: a value is required for '" ++ option ++ "'\n"
  | .invalidValue option value =>
    "error: invalid value '" ++ value ++ "' for '" ++ option ++ "'\n"
  | .argumentMissing argument => "error: '" ++ argument ++ "' was not provided\n"

end UsageFault

end PawnQuery.CommandLine
