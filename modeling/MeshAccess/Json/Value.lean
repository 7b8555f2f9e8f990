/-!
# JSON values

The values that documents are written from. Numbers are naturals, since no document of this
library holds any other; members keep the order in which they are written.
-/

namespace MeshAccess

/-- A JSON value to be written. -/
inductive Json where
  | null
  | bool (value : Bool)
  | natural (value : Nat)
  | text (value : String)
  | array (items : List Json)
  | object (members : List (String × Json))

namespace Json

/-- An array of texts. -/
def texts (items : List String) : Json := .array (items.map .text)

/-- The member `key`, present if there is a value for it. -/
def member? (key : String) (value : Option Json) : List (String × Json) :=
  value.toList.map (key, ·)

/-- The member `key`, present if the flag is set. -/
def flag? (key : String) (set : Bool) : List (String × Json) :=
  if set then [(key, .bool true)] else []

end Json

end MeshAccess
