/-!
# Tables of code point ranges

A class of characters is given by the list of the closed ranges of code points that make it up.
`RangeTable.contains` decides membership, `contains_iff` reads it as "some range holds the
code point".
-/

namespace MeshAccess.Text

/-- A class of characters as closed ranges of code points. -/
abbrev RangeTable := List (Nat × Nat)

namespace RangeTable

/-- Whether some range of the table holds the code point `n`. -/
def contains (t : RangeTable) (n : Nat) : Bool :=
  t.any fun r => decide (r.1 ≤ n) && decide (n ≤ r.2)

theorem contains_iff (t : RangeTable) (n : Nat) :
    t.contains n = true ↔ ∃ r ∈ t, r.1 ≤ n ∧ n ≤ r.2 := by
  simp [contains]

end RangeTable

end MeshAccess.Text
