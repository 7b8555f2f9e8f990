import MeshAccess.Node

/-!
# Sample nodes and users

Nodes and users that stand for any: what is not given is filled in from the number.
-/

namespace MeshAccess

/-- What is given of a sample node. -/
structure NodeSketch where
  id : NodeId
  tags : List Tag := []
  userId : Option UserId := none
  hostname : Option String := none
  ipv4 : Option IPv4 := none
  ipv6 : Option IPv6 := none
  withoutIPv4 : Bool := false

namespace NodeSketch

/-- The address `100.64.x.y` whose last octets are the lowest bytes of the number. -/
def address (id : NodeId) : IPv4 :=
  ⟨100, 64, (id.value / 256).toUInt8, id.value.toUInt8⟩

/-- The node: an untagged one belongs to the user of the same number unless a user is given, and
only a node that is to be without it has no IPv4 address. -/
def node (s : NodeSketch) : Node where
  id := s.id
  hostname := s.hostname.getD s!"node-{s.id.value.toNat}"
  ipv4 := if s.withoutIPv4 then none else some (s.ipv4.getD (address s.id))
  ipv6 := s.ipv6
  userId :=
    match s.userId with
    | some id => some id
    | none => if s.tags = [] then some ⟨s.id.value⟩ else none
  tags := s.tags

end NodeSketch

namespace User

/-- The user with the given login: a login with an `@` is an email address, of which the part
before the first `@` is the name. There is no such user if it is no valid address. -/
def ofLogin? (id : UserId) (login : String) : Option User :=
  if '@' ∈ login.toList then
    (Email.ofText? login).map fun email =>
      ⟨id, String.ofList (login.toList.takeWhile (· != '@')), some email⟩
  else some ⟨id, login, none⟩

end User

end MeshAccess
