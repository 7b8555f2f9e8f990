import MeshAccess.CommandLine.Command
import MeshAccess.SettingsFile
import MeshAccess.Snapshot
import MeshAccess.Yaml.Printer

/-!
# Carrying out commands

What the commands print, given a way to read files. Settings come from the file that is named, or
else from the first of the usual places where there is one; what is given on the command line
replaces them. The settings are read first, then the policy, then the snapshot.
-/

namespace MeshAccess.CommandLine

open MeshAccess.Text

/-- The written form of a document. -/
def OutputFormat.render (f : OutputFormat) (d : Wire.Document) : String :=
  match f with
  | .json => d.pretty
  | .yaml => Yaml.print d.toJson

/-- What a command needs to know of its surroundings. -/
structure Surroundings (m : Type → Type) where
  /-- Reads a file as text. -/
  readFile : String → m (Except FileFault String)
  /-- The home directory. -/
  home : Option String

/-- The path below a directory. -/
def below (directory path : String) : String :=
  if directory.toList.getLast? = some '/' then directory ++ path else directory ++ "/" ++ path

/-- Where settings are looked for, in this order. -/
def settingsPaths (home : Option String) : List String :=
  let own : String := ".config/meshward/config.toml"
  ["/etc/meshward/config.toml", (home.map (below · own)).getD ("~/" ++ own), "./config.toml"]

/-- The settings in the text of a file. -/
def parseSettings (path text : String) : Except Report Settings :=
  match Settings.ofToml? text with
  | some s => .ok s
  | none => .error (.of s!"failed to parse config file: {quoted path}" .settings)

/-- The report that a settings file cannot be read. -/
def unreadableSettings (path : String) (f : FileFault) : Report :=
  .of s!"failed to read config file: {quoted path}" (.file f)

section Reading

variable {m : Type → Type} [Monad m]

/-- The settings of a file. -/
def readSettings (s : Surroundings m) (path : String) : m (Except Report Settings) := do
  match ← s.readFile path with
  | .error f => return .error (unreadableSettings path f)
  | .ok text => return parseSettings path text

/-- The settings of the first file there is. -/
def findSettings (s : Surroundings m) : List String → m (Except Report Settings)
  | [] => return .ok .standard
  | path :: paths => do
    match ← s.readFile path with
    | .error f =>
      if f.isAbsence then findSettings s paths else return .error (unreadableSettings path f)
    | .ok text => return parseSettings path text

/-- The policy of a file. -/
def readPolicy (s : Surroundings m) (path : String) : m (Except Report Policy) := do
  match ← s.readFile path with
  | .error f => return .error (.of s!"failed to read policy file: {quoted path}" (.file f))
  | .ok text =>
    match Policy.load text with
    | .error f => return .error (.of s!"invalid policy file: {quoted path}" (.policy f))
    | .ok p => return .ok p

/-- The snapshot of a file. -/
def readSnapshot (s : Surroundings m) (path : String) : m (Except Report Snapshot) := do
  match ← s.readFile path with
  | .error f => return .error (.of s!"failed to read snapshot file: {quoted path}" (.file f))
  | .ok text =>
    match Snapshot.load text with
    | .error f =>
      return .error (f.report.within s!"failed to load snapshot: {quoted path}")
    | .ok snapshot => return .ok snapshot

/-- The settings of a command line: those of the file, replaced by those given. -/
def effectiveSettings (s : Surroundings m) (o : CompileOptions) : m (Except Report Settings) := do
  let found ←
    match o.settings with
    | some path => readSettings s path
    | none => findSettings s (settingsPaths s.home)
  return found.map fun settings =>
    { settings with
      recorderPort := o.recorderPort.getD settings.recorderPort
      checkUrlStart := o.checkUrlStart.getD settings.checkUrlStart }

/-- The printed document of a node. -/
def runCompile (s : Surroundings m) (o : CompileOptions) : m (Except Report String) := do
  match ← effectiveSettings s o with
  | .error r => return .error r
  | .ok settings =>
    match ← readPolicy s o.policy with
    | .error r => return .error r
    | .ok policy =>
      match ← readSnapshot s o.nodes with
      | .error r => return .error r
      | .ok snapshot =>
        return (snapshot.compileFor ⟨policy, settings⟩ o.node).map o.output.render

/-- The summary of a valid policy. -/
def summary (p : Policy) : String :=
  s!"Policy is valid ({p.rules.length} ssh rules, {p.groups.size} groups)"

/-- What a command prints. -/
def run (s : Surroundings m) : Command → m (Except Report String)
  | .compile o => runCompile s o
  | .checkPolicy file => do return (← readPolicy s file).map summary

end Reading

end MeshAccess.CommandLine
