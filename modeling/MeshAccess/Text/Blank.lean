import MeshAccess.Text.RangeTable

/-!
# White space

`isBlank` holds of the characters with Unicode's white space property, `trim` drops them at both
ends of a text.
-/

namespace MeshAccess.Text

/-- The characters with the white space property. -/
def blankRanges : RangeTable := [
  (0x9, 0xd), (0x20, 0x20), (0x85, 0x85), (0xa0, 0xa0), (0x1680, 0x1680), (0x2000, 0x200a),
  (0x2028, 0x2029), (0x202f, 0x202f), (0x205f, 0x205f), (0x3000, 0x3000)
]

/-- Whether `c` is white space of any script. -/
def isBlank (c : Char) : Bool := blankRanges.contains c.toNat

/-- White space of ASCII is in the class. -/
theorem isBlank_of_isWhitespace {c : Char} (h : c.isWhitespace = true) : isBlank c = true := by
  simp only [Char.isWhitespace, Bool.or_eq_true, decide_eq_true_eq] at h
  rcases h with ((h | h) | h) | h <;> subst h <;> decide

/-- The text without the white space at its ends. -/
def trim (cs : List Char) : List Char :=
  ((cs.dropWhile isBlank).reverse.dropWhile isBlank).reverse

end MeshAccess.Text
