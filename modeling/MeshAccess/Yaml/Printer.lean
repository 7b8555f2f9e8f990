import MeshAccess.Json.Value
import MeshAccess.Yaml.Scalar

/-!
# Writing YAML

A value in block style. Members and items begin new lines; the items of a list stand at the column
of the key they belong to, a member that is an item begins on the line of its dash, and an empty
container is written in brackets. A key that is no simple one is marked by `?`, its value by `:`.
-/

namespace MeshAccess.Yaml

open MeshAccess.Text

/-- A text with a line end, unless it has one. -/
def endLine (cs : List Char) : List Char :=
  if cs.getLast?.any isBreak then cs else cs ++ ['\n']

/-- A key up to its colon; further lines begin at `column`. -/
def key (column : Nat) (k : String) : List Char :=
  if isSimpleKey k then scalar (column + 2) k ++ [':']
  else '?' :: ' ' :: endLine (scalar (column + 2) k) ++ pad column ++ [':']

mutual

/-- What follows the colon of a member at a column. -/
def memberValue (column : Nat) : Json → List Char
  | .null => [' ', 'n', 'u', 'l', 'l', '\n']
  | .bool true => [' ', 't', 'r', 'u', 'e', '\n']
  | .bool false => [' ', 'f', 'a', 'l', 's', 'e', '\n']
  | .natural n => ' ' :: Positional.write 10 n ++ ['\n']
  | .text s => ' ' :: endLine (scalar (column + 2) s)
  | .array [] => [' ', '[', ']', '\n']
  | .array (v :: vs) => '\n' :: items (pad column) column (v :: vs)
  | .object [] => [' ', '\x7b', '\x7d', '\n']
  | .object (m :: ms) => '\n' :: members (pad (column + 2)) (column + 2) (m :: ms)

/-- The members of an object at a column; the first one follows `lead`. -/
def members (lead : List Char) (column : Nat) : List (String × Json) → List Char
  | [] => []
  | (k, v) :: ms =>
    lead ++ key column k ++ memberValue column v ++ members (pad column) column ms

/-- An item behind `lead`, whose dash stands at a column. -/
def item (lead : List Char) (column : Nat) : Json → List Char
  | .null => lead ++ ['n', 'u', 'l', 'l', '\n']
  | .bool true => lead ++ ['t', 'r', 'u', 'e', '\n']
  | .bool false => lead ++ ['f', 'a', 'l', 's', 'e', '\n']
  | .natural n => lead ++ Positional.write 10 n ++ ['\n']
  | .text s => lead ++ endLine (scalar (column + 2) s)
  | .array [] => lead ++ ['[', ']', '\n']
  | .array (v :: vs) => items lead (column + 2) (v :: vs)
  | .object [] => lead ++ ['\x7b', '\x7d', '\n']
  | .object (m :: ms) => members lead (column + 2) (m :: ms)

/-- The items of a list with dashes at a column; the first one follows `lead`. -/
def items (lead : List Char) (column : Nat) : List Json → List Char
  | [] => []
  | v :: vs => item (lead ++ ['-', ' ']) column v ++ items (pad column) column vs

end

/-- The lines of a value. -/
def lines : Json → List Char
  | .null => ['n', 'u', 'l', 'l', '\n']
  | .bool true => ['t', 'r', 'u', 'e', '\n']
  | .bool false => ['f', 'a', 'l', 's', 'e', '\n']
  | .natural n => Positional.write 10 n ++ ['\n']
  | .text s => endLine (scalar 2 s)
  | .array [] => ['[', ']', '\n']
  | .array (v :: vs) => items [] 0 (v :: vs)
  | .object [] => ['\x7b', '\x7d', '\n']
  | .object (m :: ms) => members [] 0 (m :: ms)

/-- The YAML document of a value. -/
def print (v : Json) : String := String.ofList (lines v)

end MeshAccess.Yaml
