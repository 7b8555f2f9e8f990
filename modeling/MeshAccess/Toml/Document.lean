import MeshAccess.Text.Split
import MeshAccess.Toml.Scalar
import MeshAccess.Toml.Table

/-!
# TOML documents

`read?` gives the entries of the table that a TOML document describes, none if the text is no such
document. Keys may be given once, tables follow the rules of `Entries`, and neither values nor
keys may nest too deeply.
-/

namespace MeshAccess.Toml

open MeshAccess.Text

/-- How many brackets around a value, or parts of a key, are too many. -/
def depthLimit : Nat := 80

/-! ## Keys -/

/-- A character of a bare key. -/
def isBareKeyChar (c : Char) : Bool := c.isAlphanum || c == '_' || c == '-'

/-- One part of a key. -/
def keyPart? (cs : List Char) : Option (String × List Char) :=
  match cs with
  | [] => none
  | c :: rest =>
    if c = '\x22' ∨ c = '\x27' then lineString? (c :: rest)
    else
      match cs.takeWhile isBareKeyChar with
      | [] => none
      | name => some (String.ofList name, cs.dropWhile isBareKeyChar)

/-- The parts of a key with points between them, at most `count`, behind those of `seen` in
reverse; what follows begins with no white space. -/
def keyParts? (seen : List String) : (count : Nat) → List Char →
    Option (List String × List Char)
  | 0, _ => none
  | count + 1, cs =>
    match keyPart? (skipBlank cs) with
    | none => none
    | some (part, cs) =>
      match skipBlank cs with
      | '.' :: cs => keyParts? (part :: seen) count cs
      | cs => some ((part :: seen).reverse, cs)

/-- A key: the path to its table, its last part, and what follows it. -/
def key? (cs : List Char) : Option ((List String × String) × List Char) :=
  match keyParts? [] (depthLimit - 1) cs with
  | none => none
  | some (parts, rest) => parts.getLast?.map fun last => ((parts.dropLast, last), rest)

/-! ## Values -/

/-- What follows a comment, up to the end of its line. -/
def skipComment (cs : List Char) : List Char :=
  match cs with
  | '#' :: cs => cs.dropWhile isLineChar
  | cs => cs

/-- What follows white space, comments and line ends; `inComment` says whether the text goes on
inside a comment. -/
def skipSpace (inComment : Bool) : List Char → List Char
  | [] => []
  | '\n' :: cs => skipSpace false cs
  | '\r' :: '\n' :: cs => skipSpace false cs
  | c :: cs =>
    if inComment then (if isLineChar c then skipSpace true cs else c :: cs)
    else if isBlank c then skipSpace false cs
    else if c = '#' then skipSpace true cs
    else c :: cs

/-- What follows white space, comments and line ends. -/
def skipGap (cs : List Char) : List Char := skipSpace false cs

/-- What follows a fixed word. -/
def word? (word : List Char) (cs : List Char) : Option (List Char) := dropStart? word cs

/-- A truth value, a time or a number. -/
def simple? (cs : List Char) : Option (Value × List Char) :=
  match word? ['t', 'r', 'u', 'e'] cs, word? ['f', 'a', 'l', 's', 'e'] cs, time? cs, number? cs with
  | some rest, _, _, _ => some (.bool true, rest)
  | _, some rest, _, _ => some (.bool false, rest)
  | _, _, some rest, _ => some (.time, rest)
  | _, _, _, some (.integer n, rest) => some (.integer n, rest)
  | _, _, _, some (.float, rest) => some (.float, rest)
  | none, none, none, none => none

mutual

/-- The value at the start of a text, inside `depth` brackets; `fuel` bounds the calls and is at
least the length of the text. -/
def value? (depth : Nat) : (fuel : Nat) → List Char → Option (Value × List Char)
  | 0, _ => none
  | fuel + 1, cs =>
    match cs with
    | '[' :: cs => if depth + 1 < depthLimit then items? (depth + 1) [] fuel cs else none
    | '\x7b' :: cs =>
      if depth + 1 < depthLimit then
        match skipBlank cs with
        | '\x7d' :: cs => some (.table .inline [], cs)
        | cs => fields? (depth + 1) [] fuel cs
      else none
    | '\x22' :: _ => (string? cs).map fun (s, rest) => (.text s, rest)
    | '\x27' :: _ => (string? cs).map fun (s, rest) => (.text s, rest)
    | cs => simple? cs

/-- The array whose items follow those of `seen` in reverse. -/
def items? (depth : Nat) (seen : List Value) : (fuel : Nat) → List Char →
    Option (Value × List Char)
  | 0, _ => none
  | fuel + 1, cs =>
    match skipGap cs with
    | ']' :: rest => some (.array seen.reverse, rest)
    | cs =>
      match value? depth fuel cs with
      | none => none
      | some (v, cs) =>
        match skipGap cs with
        | ',' :: cs => items? depth (v :: seen) fuel cs
        | ']' :: cs => some (.array (v :: seen).reverse, cs)
        | _ => none

/-- The inline table whose fields follow the entries `seen`; there is at least one more. -/
def fields? (depth : Nat) (seen : Entries) : (fuel : Nat) → List Char →
    Option (Value × List Char)
  | 0, _ => none
  | fuel + 1, cs =>
    match key? cs with
    | some ((path, last), '=' :: cs) =>
      match value? depth fuel (skipBlank cs) with
      | none => none
      | some (v, cs) =>
        match seen.addDotted? path last v, skipBlank cs with
        | some seen, ',' :: cs => fields? depth seen fuel cs
        | some seen, '\x7d' :: cs => some (.table .inline seen, cs)
        | _, _ => none
    | _ => none

end

/-! ## Lines -/

/-- What follows the end of a line behind an optional comment, or the end of the text. -/
def finishLine? (cs : List Char) : Option (List Char) :=
  match skipComment (skipBlank cs) with
  | [] => some []
  | cs => lineEnd? cs

/-- A document being read: its entries, and the path to the table that keys are put into. -/
structure Progress where
  entries : Entries
  path : List String

/-- The progress behind a header, and what follows it. -/
def header? (p : Progress) (cs : List Char) : Option (Progress × List Char) :=
  match cs with
  | '[' :: '[' :: cs =>
    match key? cs with
    | some ((path, last), ']' :: ']' :: rest) =>
      (p.entries.alter? path (Entries.openNext? last)).map fun es => (⟨es, path ++ [last]⟩, rest)
    | _ => none
  | '[' :: cs =>
    match key? cs with
    | some ((path, last), ']' :: rest) =>
      (p.entries.alter? path (Entries.open? last)).map fun es => (⟨es, path ++ [last]⟩, rest)
    | _ => none
  | _ => none

/-- The progress behind a key with its value, and what follows it. -/
def keyValue? (p : Progress) (cs : List Char) : Option (Progress × List Char) :=
  match key? cs with
  | some ((path, last), '=' :: cs) =>
    let cs := skipBlank cs
    match value? 0 (2 * cs.length + 2) cs with
    | none => none
    | some (v, rest) =>
      (p.entries.alter? p.path (Entries.addDotted? path last v)).map fun es => (⟨es, p.path⟩, rest)
  | _ => none

/-- The entries of a document whose lines follow, at most `count` of them. -/
def lines? (p : Progress) : (count : Nat) → List Char → Option Entries
  | 0, _ => none
  | count + 1, cs =>
    match skipBlank cs with
    | [] => some p.entries
    | c :: cs =>
      if c = '\n' ∨ c = '\r' ∨ c = '#' then
        match finishLine? (c :: cs) with
        | none => none
        | some rest => lines? p count rest
      else
        match (if c = '[' then header? p (c :: cs) else keyValue? p (c :: cs)) with
        | none => none
        | some (p, rest) =>
          match finishLine? rest with
          | none => none
          | some rest => lines? p count rest

/-- A text without a byte order mark at its start. -/
def dropByteOrderMark : List Char → List Char
  | '\ufeff' :: cs => cs
  | cs => cs

/-- The entries of the table that a document describes. -/
def read? (text : String) : Option Entries :=
  let cs := dropByteOrderMark text.toList
  lines? ⟨[], []⟩ (cs.length + 1) cs

end MeshAccess.Toml
