import MeshAccess.Text.Positional

/-!
# Decimal numbers in double precision

Which decimal numbers have a finite value in double precision. A magnitude rounds to infinity from
half a step above the greatest finite one, `infinite`, on.
-/

namespace MeshAccess.Text.DoublePrecision

/-- The least magnitude that rounds to infinity. -/
def infinite : Nat := Nat.pow 2 1024 - Nat.pow 2 970

/-- The nearest number with a mantissa of 53 bits, ties going to the even one. -/
def nearest (n : Nat) : Nat :=
  let drop := n.log2 - 52
  let kept := n >>> drop
  let half := Nat.pow 2 (drop - 1)
  let lost := n - kept <<< drop
  if drop = 0 then n
  else if half < lost ∨ (half = lost ∧ kept % 2 = 1) then (kept + 1) <<< drop
  else kept <<< drop

/-- Whether the number with the given digits, scaled by a power of ten, stays finite. -/
def isFinite (digits : List Char) (scale : Int) : Bool :=
  match digits.dropWhile (· == '0') with
  | [] => true
  | digits =>
    if (400 : Int) < digits.length + scale then false
    else if digits.length + scale < 0 then true
    else
      let n := (Positional.read? 10 digits).getD 0
      decide (n * Nat.pow 10 scale.toNat < infinite * Nat.pow 10 (-scale).toNat)

/-- Whether a product of two factors, each rounded before, stays finite. -/
def isFiniteProduct (m n : Nat) : Bool := decide (nearest m * nearest n < infinite)

end MeshAccess.Text.DoublePrecision
