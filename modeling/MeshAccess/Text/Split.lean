/-!
# Cutting texts at separators

`dropStart?` takes a text off the start of another, `splitFirst?` cuts at the first occurrence of a
text, `splitLast?` at the last one, and `pieces` at every occurrence of a character.
-/

namespace MeshAccess.Text

/-- What follows `start` in a text that begins with it. -/
def dropStart? : (start cs : List Char) → Option (List Char)
  | [], cs => some cs
  | _ :: _, [] => none
  | s :: start, c :: cs => if s = c then dropStart? start cs else none

/-- The parts before and after the first occurrence of `mark`. -/
def splitFirst? (mark : List Char) : List Char → Option (List Char × List Char)
  | [] => (dropStart? mark []).map ([], ·)
  | c :: cs =>
    match dropStart? mark (c :: cs) with
    | some rest => some ([], rest)
    | none => (splitFirst? mark cs).map fun (before, rest) => (c :: before, rest)

/-- The parts before and after the last occurrence of `mark`. -/
def splitLast? (mark : List Char) (cs : List Char) : Option (List Char × List Char) :=
  (splitFirst? mark.reverse cs.reverse).map fun (after, before) =>
    (before.reverse, after.reverse)

/-- The parts of a text between the occurrences of `mark`; there is always at least one. -/
def pieces (mark : Char) : List Char → List (List Char)
  | [] => [[]]
  | c :: cs =>
    if c = mark then [] :: pieces mark cs
    else
      match pieces mark cs with
      | [] => [[c]]
      | p :: ps => (c :: p) :: ps

/-- The number of bytes of the text in UTF-8. -/
def utf8Length (cs : List Char) : Nat := cs.foldr (fun c n => c.utf8Size + n) 0

theorem dropStart?_eq_some_iff {start cs rest : List Char} :
    dropStart? start cs = some rest ↔ cs = start ++ rest := by
  induction start generalizing cs with
  | nil => simp [dropStart?, eq_comm]
  | cons s start ih =>
    cases cs with
    | nil => simp [dropStart?]
    | cons c cs =>
      by_cases h : s = c
      · subst h; simp [dropStart?, ih]
      · simp [dropStart?, h, Ne.symm h]

theorem dropStart?_eq_none_iff {start cs : List Char} :
    dropStart? start cs = none ↔ ¬start <+: cs := by
  constructor
  · rintro h ⟨rest, hrest⟩
    rw [dropStart?_eq_some_iff.mpr hrest.symm] at h
    exact absurd h (Option.some_ne_none rest)
  · intro h
    rw [Option.eq_none_iff_forall_ne_some]
    intro rest hrest
    exact h ⟨rest, (dropStart?_eq_some_iff.mp hrest).symm⟩

end MeshAccess.Text
