import MeshAccess.Json.Decode
import MeshAccess.Text.Alphanumeric
import MeshAccess.Text.Blank
import MeshAccess.Text.Quoted
import MeshAccess.Text.Split

/-!
# Email addresses

`Email.isValid` decides the grammar of addresses, optionally behind a display name as in
`Alice <alice@example.com>`. An `Email` keeps the whole text as it was given. `Email.same` compares
two of them as addresses: the case of ASCII letters does not count behind the last `@`.
-/

namespace MeshAccess

open MeshAccess.Text

namespace Email

/-! ## Character classes -/

/-- A code point whose two bytes form a two byte sequence of UTF-8. Such a character is taken for
the character that the sequence encodes, and so is let through everywhere. -/
def isBytePair (c : Char) : Bool :=
  decide (c.toNat < 0x10000) &&
    (decide (0xc2 ≤ c.toNat / 0x100) && decide (c.toNat / 0x100 ≤ 0xdf)) &&
    (decide (0x80 ≤ c.toNat % 0x100) && decide (c.toNat % 0x100 ≤ 0xbf))

/-- The punctuation that atoms may hold. -/
def atomPunctuation : List Char :=
  ['!', '#', '$', '%', '&', '\x27', '*', '+', '-', '/', '=', '?', '^', '_', '\x60', '\x7b', '|',
    '\x7d', '~']

/-- A character of an atom. -/
def isAtomChar (c : Char) : Bool :=
  isAlphanumeric c || atomPunctuation.contains c || isBytePair c

/-- A character that stands for itself between quotes. -/
def isQuotable (c : Char) : Bool :=
  c == '\x21' || (decide ('\x23' ≤ c) && decide (c ≤ '\x5b')) ||
    (decide ('\x5d' ≤ c) && decide (c ≤ '\x7e')) || isBytePair c

/-- A character of a bracketed domain. -/
def isDomainText (c : Char) : Bool :=
  (decide ('\x21' ≤ c) && decide (c ≤ '\x5a')) || (decide ('\x5e' ≤ c) && decide (c ≤ '\x7e')) ||
    isBytePair c

/-! ## Grammar -/

/-- The content between the quotes of a local part. -/
def isQuotedContent : List Char → Bool
  | [] => true
  | '\\' :: c :: cs => (decide ('\x21' ≤ c) && decide (c ≤ '\x7e')) && isQuotedContent cs
  | c :: cs => (c == ' ' || c == '\t' || isQuotable c) && isQuotedContent cs

/-- An atom: at least one atom character. -/
def isAtom (cs : List Char) : Bool := !cs.isEmpty && cs.all isAtomChar

/-- What stands between two copies of `a` and `b` at the ends of a text of at least two
characters. -/
def between? (a b : Char) (cs : List Char) : Option (List Char) :=
  match cs with
  | [] | [_] => none
  | c :: cs => if c = a ∧ cs.getLast? = some b then some cs.dropLast else none

/-- The part before the `@`: a quoted content or atoms with points between them. -/
def isLocalPart (cs : List Char) : Bool :=
  decide (1 ≤ utf8Length cs) && decide (utf8Length cs ≤ 64) &&
    match between? '\x22' '\x22' cs with
    | some content => !content.isEmpty && isQuotedContent content
    | none => (pieces '.' cs).all isAtom

/-- A label of a domain name. -/
def isLabel (cs : List Char) : Bool :=
  decide (utf8Length cs ≤ 63) && isAtom cs &&
    cs.head?.any isAlphanumeric && cs.getLast?.any isAlphanumeric

/-- The part behind the `@`: a bracketed text or labels with points between them. -/
def isDomain (cs : List Char) : Bool :=
  decide (1 ≤ utf8Length cs) && decide (utf8Length cs ≤ 254) &&
    match between? '[' ']' cs with
    | some content => content.all isDomainText
    | none => (pieces '.' cs).all isLabel

/-- The display name of a text, empty if there is none, and its address. -/
def splitName? (cs : List Char) : Option (List Char × List Char) :=
  match splitLast? [' ', '<'] cs with
  | none => some ([], cs)
  | some (name, address) =>
    let address := trim address
    if address.getLast? = some '>' then some (trim name, address.dropLast) else none

/-- Whether a text is an address, behind a display name or not. -/
def isValid (s : String) : Bool :=
  match splitName? s.toList with
  | none => false
  | some (name, address) =>
    match splitLast? ['@'] address with
    | none => false
    | some (localPart, domain) =>
      !(name.isEmpty && localPart.head? == some '<') && isLocalPart localPart && isDomain domain

end Email

/-- A valid email address, as it was given. -/
structure Email where
  text : String
  valid : Email.isValid text = true
  deriving DecidableEq

namespace Email

/-- The sentence that refuses a text. -/
def refusal (s : String) : String := s!"invalid email format: {quoted s}"

/-- The address that a text spells. -/
def ofText? (s : String) : Option Email :=
  if h : isValid s = true then some ⟨s, h⟩ else none

/-- Reads an address from a text, refusing other texts with a sentence. -/
def parse (s : String) : Except String Email :=
  match ofText? s with
  | some e => .ok e
  | none => .error (refusal s)

/-- What stands before the last `@`, and what stands behind it with ASCII letters in lower case. -/
def normalParts (e : Email) : Option (List Char × List Char) :=
  (splitLast? ['@'] e.text.toList).map fun (localPart, domain) =>
    (localPart, domain.map Char.toLower)

/-- Whether two texts are the same address. -/
def same (e f : Email) : Bool := e.normalParts == f.normalParts

/-- An address in a document. -/
def decode (r : Json.Reading) : Except Json.Fault Email := r.asParsed parse

end Email

end MeshAccess
