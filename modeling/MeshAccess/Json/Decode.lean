import MeshAccess.Json.Reading
import MeshAccess.SortedMap

/-!
# Reading plain values

Readers for texts, flags, bounded naturals, optional values, lists and maps. Each looks at the
tree in document order and reports the first fault.
-/

namespace MeshAccess.Json.Reading

variable {α β : Type}

/-- A text. -/
def asText : Reading → Except Fault String
  | .leaf (.text s) => .ok s
  | r => .error r.readFault

/-- A flag. -/
def asBool : Reading → Except Fault Bool
  | .leaf (.bool b) => .ok b
  | r => .error r.readFault

/-- A natural of 64 bits. -/
def asUInt64 : Reading → Except Fault UInt64
  | .leaf (.natural n) =>
    if n < UInt64.size then .ok (.ofNat n) else .error (.mismatch .shape)
  | r => .error r.readFault

/-- A natural of 16 bits. -/
def asUInt16 : Reading → Except Fault UInt16
  | .leaf (.natural n) =>
    if n < UInt16.size then .ok (.ofNat n) else .error (.mismatch .shape)
  | r => .error r.readFault

/-- A value, or nothing for null. -/
def asOption (value : Reading → Except Fault α) : Reading → Except Fault (Option α)
  | .leaf .null => .ok none
  | r => (value r).map some

/-- A text that `parse` accepts, refused for the reason it gives. -/
def asParsed (parse : String → Except String α) (r : Reading) : Except Fault α :=
  match r.asText with
  | .error f => .error f
  | .ok s =>
    match parse s with
    | .error reason => .error (.mismatch (.refused reason))
    | .ok a => .ok a

/-- The items of an array, behind those of `seen` in reverse. -/
def items (value : Reading → Except Fault α) (seen : List α) :
    List Reading → Except Fault (List α)
  | [] => .ok seen.reverse
  | r :: rs =>
    match value r with
    | .error f => .error f
    | .ok a => items value (a :: seen) rs

/-- A list. -/
def asList (value : Reading → Except Fault α) : Reading → Except Fault (List α)
  | .array rs stop =>
    match items value [] rs, stop with
    | .error f, _ => .error f
    | .ok _, some f => .error f
    | .ok as, none => .ok as
  | r => .error r.readFault

/-- The key that stands in key position. -/
def key : Token → Except Fault String
  | .text s => .ok s
  | .brokenText read _ => .error read
  | .ended => .error .cutShort
  | _ => .error .malformed

/-- The entries of an object, put into `seen`; the last value of a key counts. -/
def entries (value : Reading → Except Fault α) (seen : SortedMap α) :
    List (Token × Reading) → Except Fault (SortedMap α)
  | [] => .ok seen
  | (t, r) :: ms =>
    match key t with
    | .error f => .error f
    | .ok k =>
      match value r with
      | .error f => .error f
      | .ok a => entries value (seen.insert k a) ms

/-- A map from texts. -/
def asMap (value : Reading → Except Fault α) : Reading → Except Fault (SortedMap α)
  | .object ms stop =>
    match entries value .empty ms, stop with
    | .error f, _ => .error f
    | .ok _, some f => .error f
    | .ok m, none => .ok m
  | r => .error r.readFault

end MeshAccess.Json.Reading
