/-!
# Log levels

The level that a name stands for. Upper and lower case count the same; no letter outside ASCII has
one of the letters of these names as its lower case, so only ASCII letters are changed. A name of
no level, or none at all, stands for warnings.
-/

namespace MeshAccess

/-- How much is logged. -/
inductive LogLevel where
  | trace
  | debug
  | info
  | warn
  | error
  deriving DecidableEq, Repr

namespace LogLevel

/-- The level that a name stands for. -/
def ofName (name : Option String) : LogLevel :=
  match name.map fun s => String.ofList (s.toList.map Char.toLower) with
  | some "trace" => .trace
  | some "debug" => .debug
  | some "info" => .info
  | some "error" => .error
  | _ => .warn

/-- The name of a level. -/
def name : LogLevel → String
  | .trace => "TRACE"
  | .debug => "DEBUG"
  | .info => "INFO"
  | .warn => "WARN"
  | .error => "ERROR"

end LogLevel

end MeshAccess
