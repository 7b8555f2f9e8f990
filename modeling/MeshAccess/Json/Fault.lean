/-!
# Why a document cannot be read

A document is read from its start, and the first fault met is the one reported. A `Fault` is
either a fault of the text, which ends too early or is no JSON, or a `Mismatch`: JSON that does
not describe a value of the wanted type.
-/

namespace MeshAccess.Json

/-- How a value fails to describe one of the wanted type. -/
inductive Mismatch where
  /-- A value of another kind, a number out of range, or an array of the wrong length. -/
  | shape
  /-- A record lacks the field `name`, which has no default. -/
  | missing (name : String)
  /-- A record gives the field `name` twice. -/
  | repeated (name : String)
  /-- A text was refused by the grammar of its type, for the stated reason. -/
  | refused (reason : String)
  deriving DecidableEq, Repr

/-- Why a document cannot be read. -/
inductive Fault where
  /-- The text ends inside the document or before it. -/
  | cutShort
  /-- The text is no JSON. -/
  | malformed
  /-- The value is not one of the wanted type. -/
  | mismatch (m : Mismatch)
  deriving DecidableEq, Repr

namespace Mismatch

/-- The sentence that names the mismatch, where there is one. -/
def message? : Mismatch → Option String
  | .shape => none
  | .missing name => some s!"missing field \x60{name}\x60"
  | .repeated name => some s!"duplicate field \x60{name}\x60"
  | .refused reason => some reason

end Mismatch

end MeshAccess.Json
