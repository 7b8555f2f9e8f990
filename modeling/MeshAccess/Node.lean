import MeshAccess.Address.IPv6
import MeshAccess.Tag
import MeshAccess.User

/-!
# Nodes

A node is a member device of the network. An untagged node belongs to its user; the identity of a
tagged node are its tags, and a recorded user counts for nothing there. `Node.check` is the
condition on tag lists that a decoded node may still fail.
-/

namespace MeshAccess

/-- The number of a node. -/
structure NodeId where
  value : UInt64
  deriving DecidableEq, Repr

/-- A member device of the network. -/
structure Node where
  id : NodeId
  hostname : String
  ipv4 : Option IPv4
  ipv6 : Option IPv6
  userId : Option UserId
  tags : List Tag
  deriving DecidableEq

/-- Why a decoded node is not accepted. -/
inductive NodeFault where
  | tooManyTags (count : Nat)
  | duplicateTag (tag : String)
  deriving DecidableEq, Repr

namespace NodeFault

/-- The sentence that states the fault. -/
def message : NodeFault → String
  | .tooManyTags count => s!"too many tags ({count}, max 100)"
  | .duplicateTag tag => s!"duplicate tag {Text.quoted tag}"

end NodeFault

namespace Node

/-- The most tags that a node may carry. -/
def maxTags : Nat := 100

/-- The first item of a list that equals an item of `seen` or an earlier one. -/
def firstRepeated? (seen : List String) : List String → Option String
  | [] => none
  | t :: ts => if seen.contains t then some t else firstRepeated? (t :: seen) ts

/-- Accepts a node with at most a hundred tags, none of them twice. -/
def check (n : Node) : Except NodeFault Unit :=
  if maxTags < n.tags.length then .error (.tooManyTags n.tags.length)
  else
    match firstRepeated? [] (n.tags.map Tag.text) with
    | some t => .error (.duplicateTag t)
    | none => .ok ()

/-- Whether the node carries any tag. -/
def isTagged (n : Node) : Bool := !n.tags.isEmpty

/-- Whether the node carries the tag with the given full text. -/
def hasTag (n : Node) (tag : String) : Bool := n.tags.any fun t => t.text == tag

/-- The spelled addresses of the node, IPv4 before IPv6. -/
def addresses (n : Node) : List String :=
  (n.ipv4.map IPv4.toText).toList ++ (n.ipv6.map IPv6.toText).toList

/-! ## Documents -/

/-- The number of a node in a document. -/
def decodeId (r : Json.Reading) : Except Json.Fault NodeId := r.asUInt64.map NodeId.mk

/-- The fields of a node. -/
def record : Json.Record Node :=
  ((Json.Record.required "id" decodeId).and
    ((Json.Record.required "hostname" Json.Reading.asText).and
      ((Json.Record.optional "ipv4" (Json.Reading.asParsed IPv4.parse)).and
        ((Json.Record.optional "ipv6" (Json.Reading.asParsed IPv6.parse)).and
          ((Json.Record.optional "user_id" User.decodeId).and
            (Json.Record.withDefault "tags" (Json.Reading.asList Tag.decode) [])))))).map
    fun (id, hostname, ipv4, ipv6, userId, tags) => { id, hostname, ipv4, ipv6, userId, tags }

/-- A node in a document. -/
def decode (r : Json.Reading) : Except Json.Fault Node := record.read r

/-- The document of a node. -/
def toJson (n : Node) : Json :=
  .object (("id", .natural n.id.value.toNat) :: ("hostname", .text n.hostname) ::
    Json.member? "ipv4" (n.ipv4.map fun ip => .text ip.toText) ++
    Json.member? "ipv6" (n.ipv6.map fun ip => .text ip.toText) ++
    Json.member? "user_id" (n.userId.map fun id => .natural id.value.toNat) ++
    [("tags", Json.texts (n.tags.map Tag.text))])

end Node

end MeshAccess
