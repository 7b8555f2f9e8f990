import MeshAccess.Alias
import MeshAccess.SortedMap

/-!
# Granted logins

The map from requested logins to granted ones that a list of user tokens stands for. A login is
granted as itself. The token for every login but root grants any login the requested name, and
refuses root unless root is listed too.
-/

namespace MeshAccess

namespace Logins

/-- The key that stands for any login. -/
def wildcard : String := "*"

/-- The value that grants the requested login. -/
def same : String := "="

/-- The login of the superuser. -/
def root : String := "root"

/-- The entry of a token. -/
def entry (token : String) : String × String :=
  if token = Alias.nonrootToken then (wildcard, same) else (token, token)

/-- The map with the entries of the tokens, of which the last for a key counts. -/
def listed (tokens : List String) : SortedMap String :=
  tokens.foldl (fun m t => m.insert (entry t).1 (entry t).2) .empty

/-- The map that a list of user tokens stands for. -/
def ofTokens (tokens : List String) : SortedMap String :=
  let logins := listed tokens
  if Alias.nonrootToken ∈ tokens ∧ !logins.contains root then logins.insert root "" else logins

end Logins

end MeshAccess
