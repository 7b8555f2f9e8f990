import MeshAccess.Settings
import MeshAccess.Toml.Document

/-!
# Settings files

Settings are kept in the `ssh` table of a TOML document. What is not set there has its default, and
what is not known is passed over.
-/

namespace MeshAccess

namespace Toml.Value

mutual

/-- The value as a tree to read from. -/
def toReading : Value → Json.Reading
  | .text s => .leaf (.text s)
  | .integer n => if 0 ≤ n then .leaf (.natural n.toNat) else .leaf .number
  | .bool b => .leaf (.bool b)
  | .float => .leaf .number
  | .time => .object [(.text "time", .leaf .null)] none
  | .array items => .array (toReadings items) none
  | .table _ entries => .object (toMembers entries) none
  | .tables items => .array (toObjects items).reverse none

/-- The items of an array as trees. -/
def toReadings : List Value → List Json.Reading
  | [] => []
  | v :: vs => toReading v :: toReadings vs

/-- The entries of a table as members. -/
def toMembers : List (String × Value) → List (Json.Token × Json.Reading)
  | [] => []
  | (k, v) :: es => (.text k, toReading v) :: toMembers es

/-- The tables of one header as objects. -/
def toObjects : List (List (String × Value)) → List Json.Reading
  | [] => []
  | es :: items => .object (toMembers es) none :: toObjects items

end

end Toml.Value

namespace Settings

/-- The settings that the value of the table describes. An array gives the fields in their order,
and further items count for nothing. -/
def ofValue? (v : Toml.Value) : Option Settings :=
  match v.toReading with
  | .array items _ => ((record.take items none).map (·.1)).toOption
  | r => (decode r).toOption

/-- The settings in a document, none if it is no such document. -/
def ofToml? (text : String) : Option Settings :=
  match Toml.read? text with
  | none => none
  | some entries =>
    match entries.lookup "ssh" with
    | none => some standard
    | some v => ofValue? v

end Settings

end MeshAccess
