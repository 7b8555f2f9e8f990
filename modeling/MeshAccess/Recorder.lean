import MeshAccess.Address.Endpoint
import MeshAccess.OwnedNode

/-!
# Session recorders

The endpoints that record the sessions of a rule: those of the sources and then of the destination
that carry one of the recorder tags and have an IPv4 address, each once.
-/

namespace MeshAccess

namespace Recorder

/-- The endpoint of a node at which sessions are recorded, if it carries the tag. -/
def endpoint? (port : UInt16) (tag : String) (n : OwnedNode) : Option Endpoint :=
  if n.hasTag tag then n.ipv4.map fun ip => .v4 ip port else none

/-- The items of a list without those that stand earlier in it or in `seen`. -/
def distinct (seen : List Endpoint) : List Endpoint → List Endpoint
  | [] => []
  | e :: es => if e ∈ seen then distinct seen es else e :: distinct (e :: seen) es

/-- The recording endpoints for the tags of a rule. -/
def resolve (tags : List String) (srcs : List OwnedNode) (dst : OwnedNode) (port : UInt16) :
    List Endpoint :=
  distinct [] (tags.flatMap fun tag => (srcs ++ [dst]).filterMap (endpoint? port tag))

end Recorder

end MeshAccess
