import MeshAccess.Json.Decode

/-!
# Reading records

A `Record` describes how a structure is read, field by field. A record is given either as an
object, whose members may come in any order and may include unknown ones, or as an array of the
fields in their order. In an object a field may be given once, and what is still missing at the
end is reported in the order of the fields; in an array only fields with a default may be missing.

Records are put together from single fields with `field`, `and` and `map`.
-/

namespace MeshAccess.Json

/-- How a structure is read field by field. -/
structure Record (α : Type) where
  /-- The fields read so far. -/
  Draft : Type
  /-- No field read yet. -/
  blank : Draft
  /-- Reads the value of the field with the given key, none if there is no such field. -/
  put : String → Reading → Draft → Option (Except Fault Draft)
  /-- The structure at the end of an object. -/
  finish : Draft → Except Fault α
  /-- The structure from the items of an array with the given stop, and the items left over. -/
  take : List Reading → Option Fault → Except Fault (α × List Reading)

namespace Record

variable {α β : Type}

/-- A record of one field; `absent` is what a missing one stands for. -/
def field (name : String) (value : Reading → Except Fault α) (absent : Option α) : Record α where
  Draft := Option α
  blank := none
  put key r draft :=
    if key = name then
      match draft with
      | some _ => some (.error (.mismatch (.repeated name)))
      | none => some ((value r).map some)
    else none
  finish draft :=
    match draft, absent with
    | some a, _ => .ok a
    | none, some a => .ok a
    | none, none => .error (.mismatch (.missing name))
  take items stop :=
    match items, stop, absent with
    | r :: rest, _, _ => (value r).map (·, rest)
    | [], some f, _ => .error f
    | [], none, some a => .ok (a, [])
    | [], none, none => .error (.mismatch .shape)

/-- A field that has to be given. -/
def required (name : String) (value : Reading → Except Fault α) : Record α :=
  field name value none

/-- A field that stands for `default` where it is missing. -/
def withDefault (name : String) (value : Reading → Except Fault α) (default : α) : Record α :=
  field name value (some default)

/-- A field that may be missing or null. -/
def optional (name : String) (value : Reading → Except Fault α) : Record (Option α) :=
  field name (Reading.asOption value) (some none)

/-- The fields of `r` followed by those of `s`. -/
def and (r : Record α) (s : Record β) : Record (α × β) where
  Draft := r.Draft × s.Draft
  blank := (r.blank, s.blank)
  put key v draft :=
    match r.put key v draft.1 with
    | some d => some (d.map (·, draft.2))
    | none => (s.put key v draft.2).map fun e => e.map (draft.1, ·)
  finish draft :=
    match r.finish draft.1 with
    | .error f => .error f
    | .ok a => (s.finish draft.2).map (a, ·)
  take items stop :=
    match r.take items stop with
    | .error f => .error f
    | .ok (a, items) => (s.take items stop).map fun (b, rest) => ((a, b), rest)

/-- The record whose structure is made from that of `r`. -/
def map (make : α → β) (r : Record α) : Record β where
  Draft := r.Draft
  blank := r.blank
  put := r.put
  finish draft := (r.finish draft).map make
  take items stop := (r.take items stop).map fun (a, rest) => (make a, rest)

/-- The draft after the members of an object; unknown members are passed over. -/
def fill (r : Record α) (draft : r.Draft) : List (Token × Reading) → Except Fault r.Draft
  | [] => .ok draft
  | (t, v) :: ms =>
    match Reading.key t with
    | .error f => .error f
    | .ok k =>
      match r.put k v draft with
      | some (.error f) => .error f
      | some (.ok draft) => fill r draft ms
      | none =>
        match v.skip with
        | .error f => .error f
        | .ok () => fill r draft ms

/-- Reads a record from an object or an array; an array must not hold more than its fields. -/
def read (r : Record α) : Reading → Except Fault α
  | .object ms stop =>
    match r.fill r.blank ms, stop with
    | .error f, _ => .error f
    | .ok _, some f => .error f
    | .ok draft, none => r.finish draft
  | .array items stop =>
    match r.take items stop, stop with
    | .error f, _ => .error f
    | .ok (_, _ :: _), _ => .error .malformed
    | .ok (_, []), some f => .error f
    | .ok (a, []), none => .ok a
  | .leaf t => .error t.readFault

end Record

end MeshAccess.Json
