import MeshAccess.CommandLine.Run
import MeshAccess.LogLevel

/-!
# The program

Reads the command line and the environment, carries the command out on the file system, and prints
what comes of it.
-/

namespace MeshAccess.Program

open MeshAccess.CommandLine

/-- The usage text. -/
def usage : String :=
  "Usage: ssh-policy --policy FILE --nodes FILE --node SELECTOR [OPTIONS]\n" ++
  "       policy check FILE\n\n" ++
  "Options:\n" ++
  "  -c, --config FILE          settings file (toml)\n" ++
  "  -o, --output FORMAT        json or yaml\n" ++
  "      --recorder-port PORT   port session recorders listen on\n" ++
  "      --check-url-prefix URL start of the hold-and-delegate url\n" ++
  "      --log-level LEVEL      trace, debug, info, warn or error"

/-- The numbers, with either sign, by which the system says that there is a directory at a path. -/
def directoryCodes : List UInt32 := [21, 0 - 21]

/-- Reads a file as text. -/
def readFile (path : String) : IO (Except FileFault String) := do
  match ← (IO.FS.readFile path).toBaseIO with
  | .ok text => return .ok text
  | .error e =>
    match e with
    | .noFileOrDirectory _ _ _ => return .error .notFound
    | .inappropriateType _ code _ =>
      return .error (if directoryCodes.contains code then .isDirectory else .notDirectory)
    | e => return .error (.other (toString e))

/-- The environment variables that command lines look at. -/
def environmentNames : List String :=
  ["MESHWARD_LOG_LEVEL", "MESHWARD_POLICY_FILE", "MESHWARD_NODES_FILE", "MESHWARD_CONFIG",
    "MESHWARD_SSH_RECORDER_PORT", "MESHWARD_SSH_CHECK_URL_PREFIX"]

/-- The values of these variables. -/
def environment : IO (List (String × String)) := do
  let mut found := []
  for name in environmentNames do
    if let some value ← IO.getEnv name then
      found := found ++ [(name, value)]
  return found

/-- The sentence for a fault of a document. -/
def faultText : Json.Fault → String
  | .cutShort => "unexpected end of the document"
  | .malformed => "the document is no JSON"
  | .mismatch m => m.message?.getD "a value has the wrong type"

/-- The sentence for the fault at the bottom of a report. -/
def causeText : Cause → String
  | .unreadable f => faultText f
  | .node f => f.message
  | .policy (.unreadable f) => faultText f
  | .policy f => f.message?.getD ""
  | .settings => "the document is no TOML with known settings"
  | .file .notFound => "no such file or directory"
  | .file .notDirectory => "not a directory"
  | .file .isDirectory => "is a directory"
  | .file (.other reason) => reason

/-- The lines of a report, outermost first. -/
def reportLines (r : Report) : List String := r.context ++ (r.cause.map causeText).toList

/-- The sentence for a command line that is not carried out. -/
def usageText : UsageFault → String
  | .showHelp | .showHelpForMissing => usage
  | .showVersion => "0.1.0"
  | .missingCommand => "error: a command is required"
  | .unknownCommand => "error: unrecognized command"
  | .unknownArgument => "error: unexpected argument"
  | .missingArgument => "error: a required argument was not provided"
  | .invalidValue => "error: missing or invalid value for an option"
  | .refusedValue => "error: value is no number in range"
  | .surplusValue => "error: unexpected value for an option"
  | .repeatedOption => "error: an option cannot be used multiple times"

/-- Carries out a command line and gives the exit code. -/
def carryOut (args : List String) : IO UInt32 := do
  let found ← environment
  match CommandLine.read (fun name => found.lookup name) args with
  | .error .showHelp =>
    IO.println usage
    return 0
  | .error .showVersion =>
    IO.println (usageText .showVersion)
    return 0
  | .error f =>
    IO.eprintln (usageText f)
    return 2
  | .ok invocation =>
    let home := (← IO.getEnv "HOME").filter fun path => path != ""
    match ← run ⟨readFile, home⟩ invocation.command with
    | .ok text =>
      IO.println text
      return 0
    | .error r =>
      for line in reportLines r do
        IO.eprintln line
      return 1

end MeshAccess.Program

/-- The program. -/
def main (args : List String) : IO UInt32 := MeshAccess.Program.carryOut args
