import MeshAccess.Json.Decode
import MeshAccess.Text.Split

/-!
# Tags

A tag is the identity of an automation node: `tag:` and a name of one to fifty bytes from lower
case letters, digits, hyphens and underscores. `Tag.fault?` gives the first reason why a text is
no tag; a `Tag` is a text without one.
-/

namespace MeshAccess

/-- Why a text is no tag. -/
inductive TagFault where
  | missingPrefix
  | emptyName
  /-- The name takes `size` bytes. -/
  | nameTooLong (size : Nat)
  | invalidCharacters
  deriving DecidableEq, Repr

namespace TagFault

/-- The sentence that states the fault. -/
def message : TagFault → String
  | .missingPrefix => "tag must start with 'tag:'"
  | .emptyName => "tag name cannot be empty"
  | .nameTooLong size => s!"tag name too long ({size} chars, max 50)"
  | .invalidCharacters =>
    "tag name must be lowercase alphanumeric with hyphens or underscores"

end TagFault

namespace Tag

/-- What every tag begins with. -/
def start : List Char := ['t', 'a', 'g', ':']

/-- The most bytes that a name may take. -/
def maxNameSize : Nat := 50

/-- The characters that a name may hold. -/
def isNameChar (c : Char) : Bool :=
  (decide ('a' ≤ c) && decide (c ≤ 'z')) || (decide ('0' ≤ c) && decide (c ≤ '9')) ||
    c == '-' || c == '_'

/-- The first reason why a text is no tag. -/
def fault? (s : String) : Option TagFault :=
  match Text.dropStart? start s.toList with
  | none => some .missingPrefix
  | some [] => some .emptyName
  | some name =>
    if maxNameSize < Text.utf8Length name then some (.nameTooLong (Text.utf8Length name))
    else if name.all isNameChar then none
    else some .invalidCharacters

end Tag

/-- A valid tag. -/
structure Tag where
  text : String
  valid : Tag.fault? text = none
  deriving DecidableEq

namespace Tag

/-- The tag that a text spells, or the first reason why it spells none. -/
def ofText (s : String) : Except TagFault Tag :=
  match h : fault? s with
  | none => .ok ⟨s, h⟩
  | some f => .error f

theorem ofText_eq_ok_iff {s : String} {t : Tag} : ofText s = .ok t ↔ t.text = s := by
  unfold ofText
  split
  · constructor
    · intro h
      cases h
      rfl
    · rintro rfl
      rfl
  · rename_i f hf
    constructor
    · intro h
      cases h
    · rintro rfl
      rw [t.valid] at hf
      cases hf

theorem ofText_eq_error_iff {s : String} {f : TagFault} :
    ofText s = .error f ↔ fault? s = some f := by
  unfold ofText
  split
  · rename_i hs
    constructor
    · intro h
      cases h
    · intro h
      rw [hs] at h
      cases h
  · rename_i g hg
    constructor
    · intro h
      cases h
      exact hg
    · intro h
      rw [hg] at h
      cases h
      rfl

/-- The part of a tag behind `tag:`. -/
def name (t : Tag) : String := String.ofList (t.text.toList.drop start.length)

/-- Reads a tag from a text, refusing other texts with a sentence. -/
def parse (s : String) : Except String Tag := (ofText s).mapError TagFault.message

/-- A tag in a document. -/
def decode (r : Json.Reading) : Except Json.Fault Tag := r.asParsed parse

end Tag

end MeshAccess
