import MeshAccess.Node

/-!
# Nodes with their owners

The compiler looks at nodes together with the users that own them. A `Directory` finds users by
number; of users with the same number the last one counts, and a number that no user has gives a
node no owner.
-/

namespace MeshAccess

/-- A node paired with its owner. -/
structure OwnedNode where
  node : Node
  owner : Option User
  deriving DecidableEq

namespace OwnedNode

/-- The spelled addresses, IPv4 before IPv6. -/
def addresses (n : OwnedNode) : List String := n.node.addresses

/-- The IPv4 address. -/
def ipv4 (n : OwnedNode) : Option IPv4 := n.node.ipv4

/-- Whether the node carries the tag with the given full text. -/
def hasTag (n : OwnedNode) (tag : String) : Bool := n.node.hasTag tag

/-- Whether the node carries any tag. -/
def isTagged (n : OwnedNode) : Bool := n.node.isTagged

/-- Whether the owner of the node has the given login. -/
def hasUser (n : OwnedNode) (login : String) : Bool := n.owner.any fun u => u.isNamed login

end OwnedNode

/-- Users to be found by number. -/
structure Directory where
  users : List User

namespace Directory

/-- The last user with the given number. -/
def get? (d : Directory) (id : UserId) : Option User := d.users.findRev? fun u => u.id == id

/-- The node with the owner that its recorded number names. -/
def own (d : Directory) (n : Node) : OwnedNode := ⟨n, n.userId.bind d.get?⟩

end Directory

end MeshAccess
