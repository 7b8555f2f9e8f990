import MeshAccess.Compiler
import MeshAccess.Report

/-!
# Snapshots

The users and nodes of a network at one time. `Snapshot.load` reads one from the text of a
document and checks every node. A node is selected by its number or its hostname; its document is
compiled with all nodes of other numbers as possible sources.
-/

namespace MeshAccess

/-- The users and nodes of a network. -/
structure Snapshot where
  users : List User
  nodes : List Node
  deriving DecidableEq

/-- Why a snapshot is not accepted. -/
inductive SnapshotFault where
  | unreadable (fault : Json.Fault)
  | invalidNode (hostname : String) (fault : NodeFault)
  deriving DecidableEq

namespace SnapshotFault

/-- The report of a fault. -/
def report : SnapshotFault → Report
  | .unreadable f => .of "invalid snapshot JSON" (.unreadable f)
  | .invalidNode hostname f => .of s!"invalid node {Text.quoted hostname}" (.node f)

end SnapshotFault

namespace Snapshot

/-! ## Documents -/

/-- The fields of a snapshot. -/
def record : Json.Record Snapshot :=
  ((Json.Record.withDefault "users" (Json.Reading.asList User.decode) []).and
    (Json.Record.withDefault "nodes" (Json.Reading.asList Node.decode) [])).map
    fun (users, nodes) => { users, nodes }

/-- A snapshot in a document. -/
def decode (r : Json.Reading) : Except Json.Fault Snapshot := record.read r

/-- The document of a snapshot. -/
def toJson (s : Snapshot) : Json :=
  .object [("users", .array (s.users.map User.toJson)), ("nodes", .array (s.nodes.map Node.toJson))]

/-- The first node that is not accepted. -/
def firstFault? : List Node → Option SnapshotFault
  | [] => none
  | n :: ns =>
    match n.check with
    | .error f => some (.invalidNode n.hostname f)
    | .ok () => firstFault? ns

/-- Loads a snapshot from the text of its document. -/
def load (text : String) : Except SnapshotFault Snapshot :=
  match Json.Document.read decode text with
  | .error f => .error (.unreadable f)
  | .ok s =>
    match firstFault? s.nodes with
    | some f => .error f
    | none => .ok s

/-! ## Selecting and compiling -/

/-- The number that a selector spells: decimal digits, optionally behind a plus. -/
def selectedId? (selector : String) : Option NodeId :=
  let digits :=
    match selector.toList with
    | '+' :: cs => cs
    | cs => cs
  (Text.Positional.readBelow? 10 UInt64.size digits).map fun n => ⟨.ofNat n⟩

/-- The first node with the number that the selector spells or with the selector as hostname. -/
def find? (s : Snapshot) (selector : String) : Option Node :=
  s.nodes.find? fun n => some n.id == selectedId? selector || n.hostname == selector

/-- The report that a selector finds no node. -/
def notFound (selector : String) : Report := .plain s!"node not found: {selector}"

/-- The users of the snapshot, to be found by number. -/
def directory (s : Snapshot) : Directory := ⟨s.users⟩

/-- The possible sources for a destination: the nodes of other numbers with their owners. -/
def sourcesFor (s : Snapshot) (dst : Node) : List OwnedNode :=
  (s.nodes.filter fun n => n.id != dst.id).map s.directory.own

/-- The document of the node that a selector finds. -/
def compileFor (s : Snapshot) (c : Compiler) (selector : String) : Except Report Wire.Document :=
  match s.find? selector with
  | none => .error (notFound selector)
  | some dst => .ok (c.compile (s.sourcesFor dst) (s.directory.own dst))

end Snapshot

end MeshAccess
