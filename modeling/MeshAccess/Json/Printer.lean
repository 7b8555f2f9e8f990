import MeshAccess.Json.Literal
import MeshAccess.Json.Value

/-!
# Writing JSON

Both written forms come from one printer: a `Layout` says what stands between the parts of a
value. The compact layout puts nothing there, the indented one a new line for each item and a
blank behind each colon.
-/

namespace MeshAccess.Json

open MeshAccess.Text

/-- What stands between the parts of a written value. -/
structure Layout where
  /-- What comes before an item, or before the closing bracket, at the given depth. -/
  gap : Nat → List Char
  /-- What comes behind the colon of a member. -/
  behindColon : List Char

namespace Layout

/-- Nothing between the parts. -/
def compact : Layout := ⟨fun _ => [], []⟩

/-- One line for each item, two blanks deeper with each container. -/
def indented : Layout := ⟨fun depth => '\n' :: List.replicate (2 * depth) ' ', [' ']⟩

end Layout

/-- The string literal for a text. -/
def writeText (s : String) : List Char := '\x22' :: Literal.escape s.toList ++ ['\x22']

mutual

/-- The text of a value at a depth. -/
def write (l : Layout) (depth : Nat) : Json → List Char
  | .null => ['n', 'u', 'l', 'l']
  | .bool true => ['t', 'r', 'u', 'e']
  | .bool false => ['f', 'a', 'l', 's', 'e']
  | .natural n => Positional.write 10 n
  | .text s => writeText s
  | .array [] => ['[', ']']
  | .array (v :: vs) =>
    '[' :: l.gap (depth + 1) ++ write l (depth + 1) v ++ writeItems l depth vs
  | .object [] => ['\x7b', '\x7d']
  | .object ((k, v) :: ms) =>
    '\x7b' :: l.gap (depth + 1) ++ writeText k ++ ':' :: l.behindColon ++ write l (depth + 1) v ++
      writeMembers l depth ms

/-- The text of an array at a depth, behind its first item. -/
def writeItems (l : Layout) (depth : Nat) : List Json → List Char
  | [] => l.gap depth ++ [']']
  | v :: vs => ',' :: l.gap (depth + 1) ++ write l (depth + 1) v ++ writeItems l depth vs

/-- The text of an object at a depth, behind its first member. -/
def writeMembers (l : Layout) (depth : Nat) : List (String × Json) → List Char
  | [] => l.gap depth ++ ['\x7d']
  | (k, v) :: ms =>
    ',' :: l.gap (depth + 1) ++ writeText k ++ ':' :: l.behindColon ++ write l (depth + 1) v ++
      writeMembers l depth ms

end

/-- The text of a value without any white space. -/
def compact (v : Json) : String := String.ofList (v.write .compact 0)

/-- The text of a value with a line for each item. -/
def pretty (v : Json) : String := String.ofList (v.write .indented 0)

end MeshAccess.Json
