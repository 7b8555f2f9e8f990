import MeshAccess.Text.DoublePrecision

/-!
# Texts that read as something else

A plain YAML scalar may read as null, a truth value or a number. `isAmbiguous` holds of the texts
that do, so that they have to be quoted: the spellings of null and of truth values, integers in
any base, digits behind leading zeros, decimal numbers of finite double precision, infinities and
NaN.
-/

namespace MeshAccess.Yaml

open MeshAccess.Text

/-- The spellings of null, truth values, infinities and NaN. -/
def reserved : List String :=
  ["", "null", "Null", "NULL", "~", "true", "True", "TRUE", "false", "False", "FALSE",
    ".inf", ".Inf", ".INF", "+.inf", "+.Inf", "+.INF", "-.inf", "-.Inf", "-.INF",
    ".nan", ".NaN", ".NAN"]

/-- The digits of an integer behind the mark of its base. -/
def basedDigits? : List Char → Option (Nat × List Char)
  | '0' :: 'x' :: ds => some (16, ds)
  | '0' :: 'o' :: ds => some (8, ds)
  | '0' :: 'b' :: ds => some (2, ds)
  | _ => none

/-- Whether a text is an integer of at most 128 bits with the mark of its base. -/
def isBasedInteger (cs : List Char) : Bool :=
  let (bound, cs) : Nat × List Char :=
    match cs with
    | '+' :: cs => (Nat.pow 2 128, cs)
    | '-' :: cs => (Nat.pow 2 127 + 1, cs)
    | cs => (Nat.pow 2 128, cs)
  (basedDigits? cs).any fun (base, ds) => (Positional.readBelow? base bound ds).isSome

/-- A text without a sign at its start. -/
def unsigned : List Char → List Char
  | '+' :: cs => cs
  | '-' :: cs => cs
  | cs => cs

/-- Whether a text is a row of digits that begins with a zero and goes on. -/
def isZeroPadded (cs : List Char) : Bool :=
  match unsigned cs with
  | '0' :: c :: cs => (c :: cs).all Char.isDigit
  | _ => false

/-- The exponent of a decimal number, zero if there is none. -/
def readExponent? : List Char → Option Int
  | [] => some 0
  | c :: cs =>
    if c = 'e' ∨ c = 'E' then
      match cs with
      | '-' :: ds => (Positional.read? 10 ds).map fun n => -(n : Int)
      | '+' :: ds => (Positional.read? 10 ds).map fun n => (n : Int)
      | ds => (Positional.read? 10 ds).map fun n => (n : Int)
    else none

/-- A decimal number without sign as its digits and the power of ten behind them. -/
def readDecimal? (cs : List Char) : Option (List Char × Int) :=
  let whole := cs.takeWhile Char.isDigit
  let rest := cs.dropWhile Char.isDigit
  let (fraction, rest) : List Char × List Char :=
    match rest with
    | '.' :: rest => (rest.takeWhile Char.isDigit, rest.dropWhile Char.isDigit)
    | rest => ([], rest)
  if whole ++ fraction = [] then none
  else (readExponent? rest).map fun e => (whole ++ fraction, e - fraction.length)

/-- Whether a text is a decimal number of finite double precision. -/
def isDecimal (cs : List Char) : Bool :=
  (readDecimal? (unsigned cs)).any fun (digits, scale) =>
    DoublePrecision.isFinite digits scale

/-- Whether a plain scalar with this text reads as something else than the text. -/
def isAmbiguous (s : String) : Bool :=
  reserved.contains s || isBasedInteger s.toList || isZeroPadded s.toList || isDecimal s.toList

end MeshAccess.Yaml
