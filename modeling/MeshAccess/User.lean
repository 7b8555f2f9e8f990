import MeshAccess.Email
import MeshAccess.Json.Record
import MeshAccess.Json.Value

/-!
# Users

A user owns untagged nodes. Policies name a user by the login, which is the email address if there
is one, and the name otherwise.
-/

namespace MeshAccess

/-- The number of a user. -/
structure UserId where
  value : UInt64
  deriving DecidableEq, Repr

/-- An identity that can own nodes. -/
structure User where
  id : UserId
  name : String
  email : Option Email
  deriving DecidableEq

namespace User

/-- The text that names the user in policies. -/
def login (u : User) : String :=
  match u.email with
  | some e => e.text
  | none => u.name

/-- Whether `login` names the user; the empty text names nobody. -/
def isNamed (u : User) (login : String) : Bool := login != "" && u.login == login

/-! ## Documents -/

/-- The number of a user in a document. -/
def decodeId (r : Json.Reading) : Except Json.Fault UserId := r.asUInt64.map UserId.mk

/-- The fields of a user. -/
def record : Json.Record User :=
  ((Json.Record.required "id" decodeId).and
    ((Json.Record.required "name" Json.Reading.asText).and
      (Json.Record.optional "email" Email.decode))).map
    fun (id, name, email) => { id, name, email }

/-- A user in a document. -/
def decode (r : Json.Reading) : Except Json.Fault User := record.read r

/-- The document of a user. -/
def toJson (u : User) : Json :=
  .object (("id", .natural u.id.value.toNat) :: ("name", .text u.name) ::
    Json.member? "email" (u.email.map fun e => .text e.text))

end User

end MeshAccess
