import MeshAccess.Address.Endpoint
import MeshAccess.Json.Printer
import MeshAccess.Json.Record

/-!
# Documents for destination nodes

What a destination node is told about sessions: rules in the order in which they are tried, each
with the source addresses it applies to, the logins it grants, and what happens to a session.
Flags that are not set and lists without items are left out of the written form.
-/

namespace MeshAccess.Wire

open Json (Reading Record Fault)

/-- A source address that a rule applies to. -/
structure Principal where
  address : String
  deriving DecidableEq, Repr

/-- What users are told when a session that has to be recorded is not. -/
structure RecordingFailure where
  /-- Recording cannot start. -/
  rejectMessage : String
  /-- Recording breaks off. -/
  terminateMessage : String
  deriving DecidableEq, Repr

/-- What happens to a session. -/
structure Action where
  /-- The session starts at once. -/
  accept : Bool := false
  agentForwarding : Bool := false
  localPortForwarding : Bool := false
  /-- The URL that decides on the session before it starts. -/
  holdAndDelegate : Option String := none
  /-- What the user is told. -/
  message : Option String := none
  /-- Where the session is recorded. -/
  recorders : List Endpoint := []
  /-- Set when the session has to be recorded. -/
  onRecordingFailure : Option RecordingFailure := none
  deriving DecidableEq

/-- A rule for sessions from its principals. -/
structure Rule where
  principals : List Principal
  /-- The granted login for each requested one: `*` stands for any login, `=` grants the requested
  one, and the empty text refuses it. -/
  sshUsers : SortedMap String
  action : Action
  deriving DecidableEq

/-- The rules that a destination node tries in order. -/
structure Document where
  rules : List Rule
  deriving DecidableEq

namespace Action

/-- The session starts at once, with agent and local port forwarding. -/
def acceptAtOnce : Action :=
  { accept := true, agentForwarding := true, localPortForwarding := true }

/-- The session is held until `url` allows it. -/
def hold (url : String) : Action := { holdAndDelegate := some url }

end Action

/-! ## Reading -/

namespace Principal

/-- A principal in a document. -/
def decode (r : Reading) : Except Fault Principal :=
  ((Record.required "nodeIP" Reading.asText).map Principal.mk).read r

end Principal

namespace RecordingFailure

/-- The messages of failed recording in a document. -/
def decode (r : Reading) : Except Fault RecordingFailure :=
  (((Record.required "rejectSessionWithMessage" Reading.asText).and
    (Record.required "terminateSessionWithMessage" Reading.asText)).map
    fun (rejectMessage, terminateMessage) => { rejectMessage, terminateMessage }).read r

end RecordingFailure

namespace Action

/-- The fields of an action. -/
def record : Record Action :=
  ((Record.withDefault "accept" Reading.asBool false).and
    ((Record.withDefault "allowAgentForwarding" Reading.asBool false).and
      ((Record.withDefault "allowLocalPortForwarding" Reading.asBool false).and
        ((Record.optional "holdAndDelegate" Reading.asText).and
          ((Record.optional "message" Reading.asText).and
            ((Record.withDefault "recorders"
                (Reading.asList (Reading.asParsed Endpoint.parse)) []).and
              (Record.optional "onRecordingFailure" RecordingFailure.decode))))))).map
    fun (accept, agentForwarding, localPortForwarding, holdAndDelegate, message, recorders,
        onRecordingFailure) =>
      { accept, agentForwarding, localPortForwarding, holdAndDelegate, message, recorders,
        onRecordingFailure }

/-- An action in a document. -/
def decode (r : Reading) : Except Fault Action := record.read r

end Action

namespace Rule

/-- The fields of a rule. -/
def record : Record Rule :=
  ((Record.required "principals" (Reading.asList Principal.decode)).and
    ((Record.required "sshUsers" (Reading.asMap Reading.asText)).and
      (Record.required "action" Action.decode))).map
    fun (principals, sshUsers, action) => { principals, sshUsers, action }

/-- A rule in a document. -/
def decode (r : Reading) : Except Fault Rule := record.read r

end Rule

namespace Document

/-- The document that a JSON value describes. -/
def decode (r : Reading) : Except Fault Document :=
  ((Record.required "rules" (Reading.asList Rule.decode)).map Document.mk).read r

/-- The document that a text holds. -/
def load (text : String) : Except Fault Document := Json.Document.read decode text

end Document

/-! ## Writing -/

namespace Principal

/-- The JSON value of a principal. -/
def toJson (p : Principal) : Json := .object [("nodeIP", .text p.address)]

end Principal

namespace RecordingFailure

/-- The JSON value of the messages of failed recording. -/
def toJson (f : RecordingFailure) : Json :=
  .object [("rejectSessionWithMessage", .text f.rejectMessage),
    ("terminateSessionWithMessage", .text f.terminateMessage)]

end RecordingFailure

namespace Action

/-- The JSON value of an action. -/
def toJson (a : Action) : Json :=
  .object (Json.flag? "accept" a.accept ++
    Json.flag? "allowAgentForwarding" a.agentForwarding ++
    Json.flag? "allowLocalPortForwarding" a.localPortForwarding ++
    Json.member? "holdAndDelegate" (a.holdAndDelegate.map .text) ++
    Json.member? "message" (a.message.map .text) ++
    (if a.recorders = [] then []
      else [("recorders", Json.texts (a.recorders.map Endpoint.toText))]) ++
    Json.member? "onRecordingFailure" (a.onRecordingFailure.map RecordingFailure.toJson))

end Action

/-- The JSON value of a map of logins. -/
def loginsToJson (logins : SortedMap String) : Json :=
  .object (logins.entries.map fun (requested, granted) => (requested, .text granted))

namespace Rule

/-- The JSON value of a rule. -/
def toJson (r : Rule) : Json :=
  .object [("principals", .array (r.principals.map Principal.toJson)),
    ("sshUsers", loginsToJson r.sshUsers), ("action", r.action.toJson)]

end Rule

namespace Document

/-- The JSON value of a document. -/
def toJson (d : Document) : Json := .object [("rules", .array (d.rules.map Rule.toJson))]

/-- The written form without white space. -/
def compact (d : Document) : String := d.toJson.compact

/-- The written form with a line for each item. -/
def pretty (d : Document) : String := d.toJson.pretty

end Document

end MeshAccess.Wire
