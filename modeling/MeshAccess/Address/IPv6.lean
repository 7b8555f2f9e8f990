import MeshAccess.Address.IPv4

/-!
# IPv6 addresses

Eight groups of four hexadecimal digits. In a spelling, two colons stand for at least one group of
zeros, and the last two groups may be spelled as an IPv4 address. The written form has lower case
digits without leading zeros, and two colons for the longest run of at least two zero groups, the
first of the longest; only an address that embeds an IPv4 address behind `::ffff:` is written with
points.
-/

namespace MeshAccess

open MeshAccess.Text

/-- An IPv6 address by its eight groups. -/
structure IPv6 where
  groups : List UInt16
  length_groups : groups.length = 8
  deriving DecidableEq

namespace IPv6

/-! ## Reading -/

/-- The group that one to four hexadecimal digits denote. -/
def readGroup? (cs : List Char) : Option UInt16 :=
  if cs.length ≤ 4 then (Positional.readBelow? 16 65536 cs).map UInt16.ofNat else none

/-- The two groups that an IPv4 address fills. -/
def embedded (ip : IPv4) : List UInt16 :=
  [ip.a.toUInt16 * 256 + ip.b.toUInt16, ip.c.toUInt16 * 256 + ip.d.toUInt16]

/-- The groups that are spelled between colons, the last two as an IPv4 address if `tail`. -/
def readGroups? (tail : Bool) : List (List Char) → Option (List UInt16)
  | [] => some []
  | p :: ps =>
    match readGroup? p, ps with
    | some g, ps => (readGroups? tail ps).map (g :: ·)
    | none, [] => if tail then (IPv4.read? p).map embedded else none
    | none, _ :: _ => none

/-- The groups of a side of two colons, which may have none. -/
def readSide? (tail : Bool) (cs : List Char) : Option (List UInt16) :=
  match cs with
  | [] => some []
  | cs => readGroups? tail (pieces ':' cs)

/-- The address with the groups `head` and `rest` and zeros between them. -/
def fill? (head rest : List UInt16) : Option IPv6 :=
  if h : head.length + rest.length ≤ 7 then
    some ⟨head ++ List.replicate (8 - head.length - rest.length) 0 ++ rest, by
      simp only [List.length_append, List.length_replicate]; omega⟩
  else none

/-- The address that a text spells. -/
def read? (cs : List Char) : Option IPv6 :=
  match splitFirst? [':', ':'] cs with
  | some (head, rest) =>
    match readSide? false head, readSide? true rest with
    | some head, some rest => fill? head rest
    | _, _ => none
  | none =>
    match readGroups? true (pieces ':' cs) with
    | some groups => if h : groups.length = 8 then some ⟨groups, h⟩ else none
    | none => none

/-! ## Writing -/

/-- The spelling of a group. -/
def writeGroup (g : UInt16) : List Char := Positional.write 16 g.toNat

/-- The spelling of groups with colons between them. -/
def writeGroups (gs : List UInt16) : List Char := [':'].intercalate (gs.map writeGroup)

/-- The first of the longest runs of zeros among groups that start at index `i`, by its index and
length. -/
def longestZeros (i : Nat) : List UInt16 → Nat × Nat
  | [] => (i, 0)
  | g :: gs =>
    let here := ((g :: gs).takeWhile (· == 0)).length
    let later := longestZeros (i + 1) gs
    if later.2 ≤ here then (i, here) else later

/-- The IPv4 address embedded behind `::ffff:`. -/
def mapped? (ip : IPv6) : Option IPv4 :=
  match ip.groups with
  | [0, 0, 0, 0, 0, 0xffff, g, h] =>
    some ⟨(g / 256).toUInt8, g.toUInt8, (h / 256).toUInt8, h.toUInt8⟩
  | _ => none

/-- The spelling of an address. -/
def write (ip : IPv6) : List Char :=
  match ip.mapped? with
  | some v4 => [':', ':', 'f', 'f', 'f', 'f', ':'] ++ v4.write
  | none =>
    let (start, length) := longestZeros 0 ip.groups
    if 2 ≤ length then
      writeGroups (ip.groups.take start) ++ [':', ':'] ++
        writeGroups (ip.groups.drop (start + length))
    else writeGroups ip.groups

/-- The spelling of an address as a text. -/
def toText (ip : IPv6) : String := String.ofList ip.write

/-- Reads an address from a text. -/
def parse (s : String) : Except String IPv6 :=
  match read? s.toList with
  | some ip => .ok ip
  | none => .error "invalid IPv6 address syntax"

end IPv6

end MeshAccess
