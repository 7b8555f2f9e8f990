import MeshAccess.CommandLine.Level

/-!
# Command lines

The commands of the program and the reading of a whole command line. `ssh-policy` compiles the
document of a node, `policy check` checks the file of a policy. The log level can be given at every
level, where the innermost counts.
-/

namespace MeshAccess.CommandLine

/-- The form of printed documents. -/
inductive OutputFormat where
  | json
  | yaml
  deriving DecidableEq, Repr

/-- What to compile, and how. -/
structure CompileOptions where
  policy : String
  nodes : String
  /-- The selector of the destination. -/
  node : String
  settings : Option String
  output : OutputFormat
  recorderPort : Option UInt16
  checkUrlStart : Option String
  deriving DecidableEq

/-- A command to carry out. -/
inductive Command where
  | compile (options : CompileOptions)
  | checkPolicy (file : String)
  deriving DecidableEq

/-- A whole command line. -/
structure Invocation where
  logLevel : Option String
  command : Command
  deriving DecidableEq

/-! ## The levels -/

/-- The option for the log level, which every level has. -/
def logLevelOption : Parameter :=
  { name := "log-level", kind := .text, envName := some "MESHWARD_LOG_LEVEL" }

/-- The program itself. -/
def rootLevel : Level :=
  { options := [logLevelOption], commands := ["ssh-policy", "policy"], hasVersion := true }

/-- The command for work with policy files. -/
def policyLevel : Level := { options := [logLevelOption], commands := ["check"] }

/-- The command that checks a policy file. -/
def checkLevel : Level :=
  { options := [logLevelOption]
    operand := some { name := "file", kind := .path, required := true } }

/-- The command that compiles the document of a node. -/
def compileLevel : Level :=
  { options := [
      { name := "policy", kind := .path, envName := some "MESHWARD_POLICY_FILE",
        required := true },
      { name := "nodes", kind := .path, envName := some "MESHWARD_NODES_FILE",
        required := true },
      { name := "node", kind := .text, required := true },
      { name := "config", short := some 'c', kind := .path,
        envName := some "MESHWARD_CONFIG" },
      { name := "output", short := some 'o', kind := .oneOf ["json", "yaml"] },
      { name := "recorder-port", kind := .port,
        envName := some "MESHWARD_SSH_RECORDER_PORT" },
      { name := "check-url-prefix", kind := .text,
        envName := some "MESHWARD_SSH_CHECK_URL_PREFIX" },
      logLevelOption] }

/-! ## Reading -/

/-- The commands below a level by name. -/
abbrev Below := List (String × Level)

/-- The commands below the program. -/
def belowRoot : Below := [("ssh-policy", compileLevel), ("policy", policyLevel)]

/-- The commands below the command for policy files. -/
def belowPolicy : Below := [("check", checkLevel)]

/-- What the word `help` shows for the commands that follow it. -/
def helpFor (below : Below) (nested : String → Below) : List String → UsageFault
  | [] => .showHelp
  | c :: cs =>
    if c = "help" ∧ below ≠ [] then (if cs = [] then .showHelp else .unknownCommand)
    else
      match below.lookup c, cs with
      | none, _ => .unknownCommand
      | some _, [] => .showHelp
      | some _, d :: ds =>
        match (nested c).lookup d, ds with
        | none, _ => if d = "help" ∧ nested c ≠ [] ∧ ds = [] then .showHelp else .unknownCommand
        | some _, [] => .showHelp
        | some _, _ :: _ => .unknownCommand

/-- The commands below a command of the program. -/
def belowCommand (name : String) : Below := if name = "policy" then belowPolicy else []

/-- The names of the commands and the values of all levels, outermost first. -/
abbrev Levels := List String × List Level.Values

/-- Reads a level; the commands below it are read by `inner`. -/
def readLevel (env : String → Option String) (l : Level) (help : List String → UsageFault)
    (inner : String → List String → Except UsageFault Levels) (args : List String) :
    Except UsageFault Levels :=
  match l.scan {} false args with
  | .error f => .error f
  | .ok (p, none) => (l.finish env p false).map fun values => ([], [values])
  | .ok (p, some (name, rest)) =>
    if name = "help" then .error (help rest)
    else
      match inner name rest with
      | .error f => .error f
      | .ok (names, levels) =>
        (l.finish env p true).map fun values => (name :: names, values :: levels)

/-- Reads a level without commands below it. -/
def readInnermost (env : String → Option String) (l : Level) (args : List String) :
    Except UsageFault Levels :=
  readLevel env l (fun _ => .showHelp) (fun _ _ => .error .unknownCommand) args

/-- Reads the arguments of a command of the program. -/
def readCommand (env : String → Option String) (name : String) (args : List String) :
    Except UsageFault Levels :=
  if name = "policy" then
    readLevel env policyLevel (helpFor belowPolicy fun _ => [])
      (fun _ args => readInnermost env checkLevel args) args
  else readInnermost env compileLevel args

/-- The output format that a word names. -/
def OutputFormat.ofWord (word : String) : OutputFormat :=
  if word = "yaml" then .yaml else .json

/-- The command that the values of its level describe. -/
def Command.ofValues (names : List String) (v : Level.Values) : Command :=
  if names = ["policy", "check"] then .checkPolicy ((v.get? "file").getD "")
  else
    .compile
      { policy := (v.get? "policy").getD ""
        nodes := (v.get? "nodes").getD ""
        node := (v.get? "node").getD ""
        settings := v.get? "config"
        output := ((v.get? "output").map OutputFormat.ofWord).getD .json
        recorderPort := (v.get? "recorder-port").bind readPort?
        checkUrlStart := v.get? "check-url-prefix" }

/-- The log level given at the innermost level, or else in the environment. -/
def logLevelOf (levels : List Level.Values) : Option String :=
  (levels.reverse.findSome? fun v => v.given.lookup logLevelOption.name) <|>
    levels.findSome? fun v => v.environment.lookup logLevelOption.name

/-- Reads a command line in an environment. -/
def read (env : String → Option String) (args : List String) : Except UsageFault Invocation :=
  match readLevel env rootLevel (helpFor belowRoot belowCommand) (readCommand env) args with
  | .error f => .error f
  | .ok (names, levels) =>
    .ok ⟨logLevelOf levels, Command.ofValues names (levels.getLast?.getD ⟨[], []⟩)⟩

end MeshAccess.CommandLine
