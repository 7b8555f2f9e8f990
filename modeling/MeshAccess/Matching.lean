import MeshAccess.OwnedNode
import MeshAccess.Policy.Document

/-!
# Matching tokens against nodes

Which nodes a token stands for as a source, with and without the restriction to the nodes of one
user, and what a list of destination tokens says about a node.
-/

namespace MeshAccess

namespace Alias

/-- Whether the token may bring sources into a rule with this action: a tag never into a rule with
a check. -/
def isSourceFor (a : Alias) (action : RuleAction) : Bool :=
  match a, action with
  | .tag _, .check => false
  | _, _ => true

/-- Whether an untagged node of `user` is a source when only such nodes are. -/
def matchesOwn (a : Alias) (p : Policy) (n : OwnedNode) (user : User) : Bool :=
  match a with
  | .member => true
  | .user login => n.hasUser login
  | .group name => p.isMember name user.login
  | .tag _ | .self | .nonroot | .unknown _ => false

/-- Whether a node of any user is a source. -/
def matchesAny (a : Alias) (p : Policy) (n : OwnedNode) : Bool :=
  match a with
  | .member => !n.isTagged
  | .user login => !n.isTagged && n.hasUser login
  | .group name => !n.isTagged && n.owner.any fun u => p.isMember name u.login
  | .tag text => n.hasTag text
  | .self | .nonroot | .unknown _ => false

/-- Whether a node is a source: one of any user, or an untagged one of the given user. -/
def matchesSource (a : Alias) (p : Policy) (n : OwnedNode) (user : Option User) : Bool :=
  match user with
  | some u => !n.isTagged && n.hasUser u.login && a.matchesOwn p n u
  | none => a.matchesAny p n

end Alias

/-- The addresses that a token brings in from a node. -/
def expandSource (p : Policy) (n : OwnedNode) (token : String) (user : Option User) :
    List String :=
  if (Alias.classify token).matchesSource p n user then n.addresses else []

/-- What destination tokens say about a node. -/
structure Destination where
  /-- The node is reached as the own node of its user. -/
  owner : Bool
  /-- The node is reached by one of its tags. -/
  tagged : Bool
  deriving DecidableEq, Repr

namespace Destination

/-- Whether a token reaches a node by a tag that it carries. -/
def reachesTag (n : OwnedNode) (token : String) : Bool :=
  match Alias.classify token with
  | .tag text => n.hasTag text
  | _ => false

/-- Whether a token reaches a node as the own node of its user: `autogroup:self` for any node with
an owner, and otherwise the login of the owner, unless the token reaches the node by a tag. -/
def reachesOwner (n : OwnedNode) (token : String) : Bool :=
  match Alias.classify token with
  | .tag text => !n.hasTag text && n.hasUser token
  | .self => n.owner.isSome
  | _ => n.hasUser token

/-- What the tokens of a list say about a node. -/
def evaluate (n : OwnedNode) (tokens : List String) : Destination :=
  ⟨tokens.any (reachesOwner n), tokens.any (reachesTag n)⟩

end Destination

end MeshAccess
