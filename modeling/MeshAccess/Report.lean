import MeshAccess.Json.Fault
import MeshAccess.Node
import MeshAccess.Policy.Document

/-!
# Reports

Why a command fails: what was being done, outermost first, and the fault that stopped it.
-/

namespace MeshAccess

/-- Why a file cannot be read. -/
inductive FileFault where
  | notFound
  /-- The path goes on below something that is no directory. -/
  | notDirectory
  | isDirectory
  /-- Any other reason, as the system states it. -/
  | other (reason : String)
  deriving DecidableEq, Repr

namespace FileFault

/-- Whether there is nothing at the path. -/
def isAbsence : FileFault → Bool
  | .notFound | .notDirectory => true
  | .isDirectory | .other _ => false

end FileFault

/-- The fault at the bottom of a report. -/
inductive Cause where
  | unreadable (fault : Json.Fault)
  | node (fault : NodeFault)
  | policy (fault : PolicyFault)
  | settings
  | file (fault : FileFault)
  deriving DecidableEq

/-- What was being done, outermost first, and the fault that stopped it, if it has a kind of its
own. -/
structure Report where
  context : List String
  cause : Option Cause
  deriving DecidableEq

namespace Report

/-- A report that says it all in one sentence. -/
def plain (sentence : String) : Report := ⟨[sentence], none⟩

/-- A report of a fault met while doing something. -/
def of (doing : String) (cause : Cause) : Report := ⟨[doing], some cause⟩

/-- The report with an outer context. -/
def within (doing : String) (r : Report) : Report := { r with context := doing :: r.context }

end Report

end MeshAccess
