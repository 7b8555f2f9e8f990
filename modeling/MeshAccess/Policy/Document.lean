import MeshAccess.Alias
import MeshAccess.Policy.Rule

/-!
# Policies

A policy names groups of logins and lists the rules. `Policy.load` reads one from the text of a
document: the text must not be too large, it has to be the document of a policy, group names have
to begin with `group:`, and every rule has to be acceptable. The first fault in this order is
reported.
-/

namespace MeshAccess

/-- The policy that an administrator writes. -/
structure Policy where
  /-- The members of each group, by the full name of the group. -/
  groups : SortedMap (List String)
  rules : List Rule
  deriving DecidableEq

/-- Why a policy is not accepted. -/
inductive PolicyFault where
  /-- The document takes `size` bytes. -/
  | tooLarge (size : Nat)
  | unreadable (fault : Json.Fault)
  | invalidGroup (name : String)
  | invalidRule (index : Nat) (fault : RuleFault)
  deriving DecidableEq

namespace Policy

/-- The most bytes that a document may take. -/
def maxSize : Nat := 1048576

end Policy

namespace PolicyFault

/-- The sentence that states the fault; faults of the text have none. -/
def message? : PolicyFault → Option String
  | .tooLarge size => some s!"policy too large ({size} bytes, max {Policy.maxSize})"
  | .unreadable _ => none
  | .invalidGroup name =>
    some s!"invalid group name {Text.quoted name}: must start with 'group:'"
  | .invalidRule index fault =>
    some s!"invalid ssh rule at index {index}: {RuleFault.message fault}"

end PolicyFault

namespace Policy

/-- The policy that lets nobody in. -/
def empty : Policy := ⟨.empty, []⟩

/-- The first rule that is not acceptable, counted from `index`, and its fault. -/
def firstFault? (index : Nat) : List Rule → Option (Nat × RuleFault)
  | [] => none
  | r :: rs =>
    match r.check with
    | .error f => some (index, f)
    | .ok () => firstFault? (index + 1) rs

/-- Accepts a policy whose group names begin with `group:` and whose rules are acceptable. -/
def check (p : Policy) : Except PolicyFault Unit :=
  match p.groups.keys.find? fun name => !Alias.isGroupName name with
  | some name => .error (.invalidGroup name)
  | none =>
    match firstFault? 0 p.rules with
    | some (index, f) => .error (.invalidRule index f)
    | none => .ok ()

/-- Whether `login` is listed in the group with the given full name. The empty login is in no
group, and a group that is not defined has no members. -/
def isMember (p : Policy) (group login : String) : Bool :=
  login != "" && (p.groups.get? group).any fun members => members.contains login

/-! ## Documents -/

/-- The fields of a policy. -/
def record : Json.Record Policy :=
  ((Json.Record.withDefault "groups" (Json.Reading.asMap Rule.decodeTexts) .empty).and
    (Json.Record.withDefault "ssh" (Json.Reading.asList Rule.decode) [])).map
    fun (groups, rules) => { groups, rules }

/-- A policy in a document. -/
def decode (r : Json.Reading) : Except Json.Fault Policy := record.read r

/-- The document of a policy. -/
def toJson (p : Policy) : Json :=
  .object [("groups", .object (p.groups.entries.map fun (name, members) =>
      (name, Json.texts members))),
    ("ssh", .array (p.rules.map Rule.toJson))]

/-- Loads a policy from the text of its document. -/
def load (text : String) : Except PolicyFault Policy :=
  if maxSize < text.utf8ByteSize then .error (.tooLarge text.utf8ByteSize)
  else
    match Json.Document.read decode text with
    | .error f => .error (.unreadable f)
    | .ok p =>
      match p.check with
      | .error f => .error f
      | .ok () => .ok p

end Policy

end MeshAccess
