import MeshAccess.Text.Positional
import MeshAccess.Text.Split

/-!
# IPv4 addresses

Four numbers from 0 to 255 with points between them. The written form has no leading zeros, and no
other form is read.
-/

namespace MeshAccess

open MeshAccess.Text

/-- An IPv4 address by its four octets. -/
structure IPv4 where
  a : UInt8
  b : UInt8
  c : UInt8
  d : UInt8
  deriving DecidableEq, Repr

namespace IPv4

/-- The octet that a decimal numeral of at most three digits without leading zeros denotes. -/
def readOctet? (cs : List Char) : Option UInt8 :=
  match cs with
  | '0' :: _ :: _ => none
  | _ :: _ :: _ :: _ :: _ => none
  | cs => (Positional.readBelow? 10 256 cs).map UInt8.ofNat

/-- The address that a text spells. -/
def read? (cs : List Char) : Option IPv4 :=
  match pieces '.' cs with
  | [a, b, c, d] =>
    match readOctet? a, readOctet? b, readOctet? c, readOctet? d with
    | some a, some b, some c, some d => some ⟨a, b, c, d⟩
    | _, _, _, _ => none
  | _ => none

/-- The spelling of an octet. -/
def writeOctet (o : UInt8) : List Char := Positional.write 10 o.toNat

/-- The spelling of an address. -/
def write (ip : IPv4) : List Char :=
  writeOctet ip.a ++ '.' :: writeOctet ip.b ++ '.' :: writeOctet ip.c ++ '.' :: writeOctet ip.d

/-- The spelling of an address as a text. -/
def toText (ip : IPv4) : String := String.ofList ip.write

/-- Reads an address from a text. -/
def parse (s : String) : Except String IPv4 :=
  match read? s.toList with
  | some ip => .ok ip
  | none => .error "invalid IPv4 address syntax"

end IPv4

end MeshAccess
