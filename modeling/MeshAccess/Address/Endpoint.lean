import MeshAccess.Address.IPv6

/-!
# Endpoints

An address with a port: `1.2.3.4:80` or `[::1]:80`, the latter with an optional scope, as in
`[fe80::1%2]:80`. Ports and scopes are decimal numerals that may have leading zeros when they are
read; a scope of zero is not written.
-/

namespace MeshAccess

open MeshAccess.Text

/-- An address with a port. -/
inductive Endpoint where
  | v4 (ip : IPv4) (port : UInt16)
  | v6 (ip : IPv6) (scope : UInt32) (port : UInt16)
  deriving DecidableEq

namespace Endpoint

/-- The port that a decimal numeral denotes. -/
def readPort? (cs : List Char) : Option UInt16 :=
  (Positional.readBelow? 10 UInt16.size cs).map UInt16.ofNat

/-- The scope that a decimal numeral denotes. -/
def readScope? (cs : List Char) : Option UInt32 :=
  (Positional.readBelow? 10 UInt32.size cs).map UInt32.ofNat

/-- The address and the scope that stand between brackets. -/
def readScoped? (cs : List Char) : Option (IPv6 × UInt32) :=
  match splitFirst? ['%'] cs with
  | none => (IPv6.read? cs).map (·, 0)
  | some (ip, scope) =>
    match IPv6.read? ip, readScope? scope with
    | some ip, some scope => some (ip, scope)
    | _, _ => none

/-- The endpoint that a text spells. -/
def read? (cs : List Char) : Option Endpoint :=
  match cs with
  | '[' :: cs =>
    match splitFirst? [']', ':'] cs with
    | none => none
    | some (ip, port) =>
      match readScoped? ip, readPort? port with
      | some (ip, scope), some port => some (.v6 ip scope port)
      | _, _ => none
  | cs =>
    match splitFirst? [':'] cs with
    | none => none
    | some (ip, port) =>
      match IPv4.read? ip, readPort? port with
      | some ip, some port => some (.v4 ip port)
      | _, _ => none

/-- The spelling of an endpoint. -/
def write : Endpoint → List Char
  | .v4 ip port => ip.write ++ ':' :: Positional.write 10 port.toNat
  | .v6 ip scope port =>
    '[' :: ip.write ++ (if scope = 0 then [] else '%' :: Positional.write 10 scope.toNat) ++
      ']' :: ':' :: Positional.write 10 port.toNat

/-- The spelling of an endpoint as a text. -/
def toText (e : Endpoint) : String := String.ofList e.write

/-- Reads an endpoint from a text. -/
def parse (s : String) : Except String Endpoint :=
  match read? s.toList with
  | some e => .ok e
  | none => .error "invalid socket address syntax"

end Endpoint

end MeshAccess
