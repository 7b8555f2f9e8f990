import MeshAccess.Text.Split

/-!
# Aliases

A token of a rule names users, groups, tags or one of the fixed groups. `Alias.classify` sorts
tokens by their form alone: the fixed groups first, then by the start of the token, then logins by
their `@`. A token of no known form is `unknown`.
-/

namespace MeshAccess

/-- What a token of a rule names. -/
inductive Alias where
  /-- A user by the login. -/
  | user (login : String)
  /-- A group by its full name, `group:` included. -/
  | group (name : String)
  /-- A tag by its full text, `tag:` included. -/
  | tag (text : String)
  /-- Every untagged node. -/
  | member
  /-- The own nodes of the connecting user. -/
  | self
  /-- Every login but root. -/
  | nonroot
  | unknown (token : String)
  deriving DecidableEq, Repr

namespace Alias

/-- The token for every login but root. -/
def nonrootToken : String := "autogroup:nonroot"

/-- Whether a text begins with `start`. -/
def startsWith (start : List Char) (s : String) : Bool :=
  (Text.dropStart? start s.toList).isSome

theorem startsWith_iff {start : List Char} {s : String} :
    startsWith start s = true ↔ start <+: s.toList := by
  simp only [startsWith, Option.isSome_iff_exists, Text.dropStart?_eq_some_iff]
  exact exists_congr fun rest => eq_comm

/-- Whether a text begins as group names do. -/
def isGroupName (s : String) : Bool := startsWith ['g', 'r', 'o', 'u', 'p', ':'] s

/-- Whether a text begins as tags do. -/
def isTagName (s : String) : Bool := startsWith ['t', 'a', 'g', ':'] s

/-- What a token names, by its form. -/
def classify (token : String) : Alias :=
  if token = "autogroup:member" ∨ token = "autogroup:members" then .member
  else if token = "autogroup:self" then .self
  else if token = nonrootToken then .nonroot
  else if isTagName token then .tag token
  else if isGroupName token then .group token
  else if '@' ∈ token.toList then .user token
  else .unknown token

end Alias

end MeshAccess
