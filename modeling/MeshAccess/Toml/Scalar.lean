import MeshAccess.Text.DoublePrecision

/-!
# TOML strings, numbers and times

Readers for the scalars of a TOML document. Each takes the scalar off the start of a text and gives
what follows it.
-/

namespace MeshAccess.Toml

open MeshAccess.Text

/-! ## Characters -/

/-- White space inside a line. -/
def isBlank (c : Char) : Bool := c == ' ' || c == '\t'

/-- A character that may stand in a comment. -/
def isLineChar (c : Char) : Bool :=
  c == '\t' || (decide (0x20 ≤ c.toNat) && c.toNat != 0x7f)

/-- A text without the white space at its start. -/
def skipBlank (cs : List Char) : List Char := cs.dropWhile isBlank

/-- What follows a line end at the start of a text. -/
def lineEnd? : List Char → Option (List Char)
  | '\n' :: cs => some cs
  | '\r' :: '\n' :: cs => some cs
  | _ => none

/-! ## Strings -/

/-- The character that the first `width` characters of a text name in hexadecimal. -/
def codePoint? (width : Nat) (cs : List Char) : Option Char :=
  if (cs.take width).length = width then
    match Positional.read? 16 (cs.take width) with
    | some n => if h : n.isValidChar then some (Char.ofNatAux n h) else none
    | none => none
  else none

/-- The character that stands behind a backslash, and what follows it. -/
def escape? : List Char → Option (Char × List Char)
  | 'b' :: cs => some ('\x08', cs)
  | 't' :: cs => some ('\t', cs)
  | 'n' :: cs => some ('\n', cs)
  | 'f' :: cs => some ('\x0c', cs)
  | 'r' :: cs => some ('\r', cs)
  | '\x22' :: cs => some ('\x22', cs)
  | '\\' :: cs => some ('\\', cs)
  | 'u' :: cs => (codePoint? 4 cs).map (·, cs.drop 4)
  | 'U' :: cs => (codePoint? 8 cs).map (·, cs.drop 8)
  | _ => none

/-- The rest of a string between double quotes; `seen` holds its characters in reverse. The string
has at most `count` characters. -/
def basicString? (seen : List Char) : (count : Nat) → List Char → Option (String × List Char)
  | 0, _ => none
  | count + 1, cs =>
    match cs with
    | '\x22' :: cs => some (String.ofList seen.reverse, cs)
    | '\\' :: cs =>
      match escape? cs with
      | some (c, cs) => basicString? (c :: seen) count cs
      | none => none
    | c :: cs => if isLineChar c then basicString? (c :: seen) count cs else none
    | [] => none

/-- The rest of a string between single quotes. -/
def literalString? (seen : List Char) : List Char → Option (String × List Char)
  | [] => none
  | c :: cs =>
    if c = '\x27' then some (String.ofList seen.reverse, cs)
    else if isLineChar c then literalString? (c :: seen) cs
    else none

/-- What follows white space and line ends. A carriage return without a line feed is no line
end. -/
def skipLines : List Char → List Char
  | [] => []
  | '\n' :: cs => skipLines cs
  | '\r' :: '\n' :: cs => skipLines cs
  | c :: cs => if isBlank c then skipLines cs else c :: cs

/-- What follows a backslash that ends its line. -/
def continuation? (cs : List Char) : Option (List Char) :=
  (lineEnd? (skipBlank cs)).map skipLines

/-- The end of a string in triple quotes `quote`: a run of three to five of them, of which the last
three close the string. -/
def closing? (quote : Char) (seen cs : List Char) : Option (String × List Char) :=
  let run := ((cs.takeWhile (· == quote)).take 5).length
  if 3 ≤ run then
    some (String.ofList (List.replicate (run - 3) quote ++ seen).reverse, cs.drop run)
  else none

/-- The rest of a string between triple double quotes, of at most `count` characters. -/
def basicLines? (seen : List Char) : (count : Nat) → List Char → Option (String × List Char)
  | 0, _ => none
  | count + 1, cs =>
    match closing? '\x22' seen cs with
    | some r => some r
    | none =>
      match cs with
      | [] => none
      | '\n' :: cs => basicLines? ('\n' :: seen) count cs
      | '\r' :: '\n' :: cs => basicLines? ('\n' :: seen) count cs
      | '\\' :: cs =>
        match continuation? cs, escape? cs with
        | some cs, _ => basicLines? seen count cs
        | none, some (c, cs) => basicLines? (c :: seen) count cs
        | none, none => none
      | c :: cs => if isLineChar c then basicLines? (c :: seen) count cs else none

/-- The rest of a string between triple single quotes, of at most `count` characters. -/
def literalLines? (seen : List Char) : (count : Nat) → List Char → Option (String × List Char)
  | 0, _ => none
  | count + 1, cs =>
    match closing? '\x27' seen cs with
    | some r => some r
    | none =>
      match cs with
      | [] => none
      | '\n' :: cs => literalLines? ('\n' :: seen) count cs
      | '\r' :: '\n' :: cs => literalLines? ('\n' :: seen) count cs
      | c :: cs => if isLineChar c then literalLines? (c :: seen) count cs else none

/-- A text without a line end at its start. -/
def dropLineEnd (cs : List Char) : List Char := (lineEnd? cs).getD cs

/-- A string on one line. -/
def lineString? : List Char → Option (String × List Char)
  | '\x22' :: cs => basicString? [] (cs.length + 1) cs
  | '\x27' :: cs => literalString? [] cs
  | _ => none

/-- A string. -/
def string? : List Char → Option (String × List Char)
  | '\x22' :: '\x22' :: '\x22' :: cs => basicLines? [] (cs.length + 1) (dropLineEnd cs)
  | '\x27' :: '\x27' :: '\x27' :: cs => literalLines? [] (cs.length + 1) (dropLineEnd cs)
  | cs => lineString? cs

/-! ## Numbers -/

/-- The digits at the start of a text, for which `p` holds, with single underscores between them;
the text gives a wrong digit after an underscore as the rest. -/
def digits (p : Char → Bool) : List Char → List Char × List Char
  | c :: cs =>
    if p c then
      match cs with
      | '_' :: d :: ds =>
        if p d then
          let (more, rest) := digits p (d :: ds)
          (c :: more, rest)
        else ([c], '_' :: d :: ds)
      | cs =>
        let (more, rest) := digits p cs
        (c :: more, rest)
    else ([], c :: cs)
  | [] => ([], [])

/-- Digits, at least one. -/
def digits? (p : Char → Bool) (cs : List Char) : Option (List Char × List Char) :=
  match digits p cs with
  | ([], _) => none
  | r => some r

/-- Whether there is a digit of base `base`. -/
def isDigitOf (base : Nat) (c : Char) : Bool := (Positional.digitValue? base c).isSome

/-- The sign at the start of a text, and whether it is a minus. -/
def sign : List Char → Bool × List Char
  | '-' :: cs => (true, cs)
  | '+' :: cs => (false, cs)
  | cs => (false, cs)

/-- The digits of a decimal integer: a zero stands alone. -/
def decimal? (cs : List Char) : Option (List Char × List Char) :=
  match cs with
  | '0' :: cs => some (['0'], cs)
  | cs => digits? Char.isDigit cs

/-- An integer that fits into 64 bits with its sign. -/
def fitted? (negative : Bool) (n : Nat) : Option Int :=
  if negative then (if n ≤ Nat.pow 2 63 then some (-(n : Int)) else none)
  else if n < Nat.pow 2 63 then some n
  else none

/-- The digits behind a point, none if there is no point. -/
def fraction? : List Char → Option (List Char × List Char)
  | '.' :: cs => digits? Char.isDigit cs
  | cs => some ([], cs)

/-- The value of an exponent, none of it if there is no exponent. -/
def exponent? (cs : List Char) : Option (Option Int × List Char) :=
  match cs with
  | c :: cs =>
    if c = 'e' ∨ c = 'E' then
      let (negative, cs) := sign cs
      (digits? Char.isDigit cs).map fun (ds, rest) =>
        let n := (Positional.read? 10 ds).getD 0
        (some (if negative then -(n : Int) else n), rest)
    else some (none, c :: cs)
  | [] => some (none, [])

/-- What a number is: an integer, or one with a fraction or an exponent. -/
inductive Number where
  | integer (value : Int)
  | float
  deriving Repr

/-- An integer behind the mark of its base. -/
def based? (base : Nat) (cs : List Char) : Option (Number × List Char) :=
  match digits? (isDigitOf base) cs with
  | none => none
  | some (ds, rest) =>
    ((Positional.read? base ds).bind (fitted? false)).map fun n => (.integer n, rest)

/-- A decimal number behind its sign. A float beyond double precision is refused, unless it is
negative. -/
def decimalNumber? (negative : Bool) (cs : List Char) : Option (Number × List Char) :=
  match decimal? cs with
  | none => none
  | some (whole, cs) =>
    match fraction? cs with
    | none => none
    | some (fraction, cs) =>
      match exponent? cs with
      | none => none
      | some (exponent, rest) =>
        if fraction = [] ∧ exponent = none then
          ((Positional.read? 10 whole).bind (fitted? negative)).map fun n => (.integer n, rest)
        else if negative ||
            DoublePrecision.isFinite (whole ++ fraction) (exponent.getD 0 - fraction.length) then
          some (.float, rest)
        else none

/-- A number. -/
def number? (cs : List Char) : Option (Number × List Char) :=
  match cs with
  | '0' :: 'x' :: cs => based? 16 cs
  | '0' :: 'o' :: cs => based? 8 cs
  | '0' :: 'b' :: cs => based? 2 cs
  | cs =>
    match sign cs with
    | (_, 'i' :: 'n' :: 'f' :: rest) => some (.float, rest)
    | (_, 'n' :: 'a' :: 'n' :: rest) => some (.float, rest)
    | (negative, cs) => decimalNumber? negative cs

/-! ## Times -/

/-- A number of exactly `width` digits that is at least `low` and at most `high`. -/
def fixed? (width low high : Nat) (cs : List Char) : Option (Nat × List Char) :=
  if (cs.take width).length = width then
    match Positional.read? 10 (cs.take width) with
    | some n => if low ≤ n ∧ n ≤ high then some (n, cs.drop width) else none
    | none => none
  else none

/-- What follows the character `c` at the start of a text. -/
def mark? (c : Char) : List Char → Option (List Char)
  | d :: cs => if d = c then some cs else none
  | [] => none

/-- The number of days of a month. -/
def daysIn (year month : Nat) : Nat :=
  if month = 2 then (if year % 4 = 0 ∧ (year % 100 ≠ 0 ∨ year % 400 = 0) then 29 else 28)
  else if month ∈ [4, 6, 9, 11] then 30
  else 31

/-- What follows a date. -/
def date? (cs : List Char) : Option (List Char) := do
  let (year, cs) ← fixed? 4 0 9999 cs
  let cs ← mark? '-' cs
  let (month, cs) ← fixed? 2 1 12 cs
  let cs ← mark? '-' cs
  let (_, cs) ← fixed? 2 1 (daysIn year month) cs
  return cs

/-- What follows a time of day. -/
def timeOfDay? (cs : List Char) : Option (List Char) := do
  let (_, cs) ← fixed? 2 0 23 cs
  let cs ← mark? ':' cs
  let (_, cs) ← fixed? 2 0 59 cs
  let cs ← mark? ':' cs
  let (_, cs) ← fixed? 2 0 60 cs
  match cs with
  | '.' :: d :: rest =>
    if d.isDigit then some (rest.dropWhile Char.isDigit) else some ('.' :: d :: rest)
  | cs => some cs

/-- What follows an offset from universal time, which may be missing. -/
def skipOffset (cs : List Char) : List Char :=
  let signed (rest : List Char) : Option (List Char) := do
    let (_, rest) ← fixed? 2 0 23 rest
    let rest ← mark? ':' rest
    let (_, rest) ← fixed? 2 0 59 rest
    return rest
  match cs with
  | 'Z' :: rest => rest
  | 'z' :: rest => rest
  | '+' :: rest => (signed rest).getD cs
  | '-' :: rest => (signed rest).getD cs
  | _ => cs

/-- What follows a time: a date, a time of day, or both. -/
def time? (cs : List Char) : Option (List Char) :=
  match date? cs with
  | none => timeOfDay? cs
  | some rest =>
    let clock :=
      match rest with
      | 'T' :: cs => timeOfDay? cs
      | 't' :: cs => timeOfDay? cs
      | ' ' :: cs => timeOfDay? cs
      | _ => none
    match clock with
    | none => some rest
    | some rest => some (skipOffset rest)

end MeshAccess.Toml
