import MeshAccess.Json.Literal
import MeshAccess.Json.Number

/-!
# Tokens

`next` takes the first token off a text. A token that is no proper one says how it fails in two
ways: when its value is wanted, and when it is only passed over. A string with a lone surrogate
and a number beyond double precision can be passed over, though they have no value.
`length_of_next` says that taking a token leaves a shorter text.
-/

namespace MeshAccess.Json

/-- The smallest parts of a document. -/
inductive Token where
  | openObject
  | closeObject
  | openArray
  | closeArray
  | colon
  | comma
  | null
  | bool (value : Bool)
  /-- A number written as a natural. -/
  | natural (value : Nat)
  /-- Any other number: with a sign, a fraction or an exponent. -/
  | number
  | text (value : String)
  /-- A string literal that cannot be read with fault `read`, nor passed over if `skip` is some. -/
  | brokenText (read : Fault) (skip : Option Fault)
  /-- A number or a word that cannot be read, with faults as for texts. -/
  | brokenScalar (read : Fault) (skip : Option Fault)
  /-- A character that begins no token. -/
  | stray
  /-- The end of the text. -/
  | ended

namespace Token

/-- The white space between tokens. -/
def isBlank (c : Char) : Bool := c == ' ' || c == '\n' || c == '\t' || c == '\r'

/-- The fault of finding this token where a value of another kind is wanted. -/
def readFault : Token → Fault
  | .openObject | .openArray | .null | .bool _ | .natural _ | .number | .text _ =>
    .mismatch .shape
  | .brokenText read _ | .brokenScalar read _ => read
  | .ended => .cutShort
  | .closeObject | .closeArray | .colon | .comma | .stray => .malformed

/-- The fault of passing over this token where a value is due, if it is no value. -/
def skipFault : Token → Option Fault
  | .openObject | .openArray | .null | .bool _ | .natural _ | .number | .text _ => none
  | .brokenText _ skip | .brokenScalar _ skip => skip
  | .ended => some .cutShort
  | .closeObject | .closeArray | .colon | .comma | .stray => some .malformed

/-- The string literal behind a quote. -/
def nextText (cs : List Char) : Token × List Char :=
  match Literal.read [] cs with
  | .ok (cs, rest) => (.text (String.ofList cs), rest)
  | .error read =>
    match Literal.skip cs with
    | .ok rest => (.brokenText read none, rest)
    | .error skip => (.brokenText read (some skip), [])

/-- The number at the start of a text. -/
def nextNumber (cs : List Char) : Token × List Char :=
  match Numeral.read cs with
  | .error read => (.brokenScalar read (some .malformed), [])
  | .ok (n, rest) =>
    if n.isFinite then (((n.natural?).map Token.natural).getD .number, rest)
    else (.brokenScalar .malformed none, rest)

/-- The token `whole` whose spelling goes on with `word`. -/
def nextWord (whole : Token) : (word cs : List Char) → Token × List Char
  | [], cs => (whole, cs)
  | _ :: _, [] => (.brokenScalar .cutShort (some .cutShort), [])
  | w :: word, c :: cs =>
    if w = c then nextWord whole word cs else (.brokenScalar .malformed (some .malformed), [])

/-- The token that begins with `c`, and what follows it. -/
def startingWith (c : Char) (cs : List Char) : Token × List Char :=
  match c with
  | '\x7b' => (.openObject, cs)
  | '\x7d' => (.closeObject, cs)
  | '[' => (.openArray, cs)
  | ']' => (.closeArray, cs)
  | ':' => (.colon, cs)
  | ',' => (.comma, cs)
  | '\x22' => nextText cs
  | 'n' => nextWord .null ['u', 'l', 'l'] cs
  | 't' => nextWord (.bool true) ['r', 'u', 'e'] cs
  | 'f' => nextWord (.bool false) ['a', 'l', 's', 'e'] cs
  | c => if c = '-' ∨ c.isDigit then nextNumber (c :: cs) else (.stray, cs)

/-- The first token of a text and what follows it, if there is anything but white space. -/
def next (cs : List Char) : Option (Token × List Char) :=
  match cs.dropWhile isBlank with
  | [] => none
  | c :: cs => some (startingWith c cs)

/-! ## What is left is shorter -/

theorem length_nextText (cs : List Char) : (nextText cs).2.length ≤ cs.length := by
  unfold nextText
  split
  · rename_i h; exact Nat.le_of_lt (Literal.length_of_read h)
  · split
    · rename_i h; exact Nat.le_of_lt (Literal.length_of_skip h)
    · simp

theorem length_nextNumber (c : Char) (cs : List Char) :
    (nextNumber (c :: cs)).2.length ≤ cs.length := by
  unfold nextNumber
  split
  · simp
  · rename_i h
    have := Numeral.length_of_read h
    simp only [List.length_cons] at this
    split <;> (simp only; omega)

theorem length_nextWord (whole : Token) (word cs : List Char) :
    (nextWord whole word cs).2.length ≤ cs.length := by
  fun_induction nextWord whole word cs <;> grind

theorem length_startingWith (c : Char) (cs : List Char) :
    (startingWith c cs).2.length ≤ cs.length := by
  unfold startingWith
  split
  case h_7 => exact length_nextText cs
  case h_8 => exact length_nextWord _ _ cs
  case h_9 => exact length_nextWord _ _ cs
  case h_10 => exact length_nextWord _ _ cs
  case h_11 =>
    split
    · exact length_nextNumber _ cs
    · simp
  all_goals simp

/-- Taking a token leaves a shorter text. -/
theorem length_of_next {cs rest : List Char} {t : Token} (h : next cs = some (t, rest)) :
    rest.length < cs.length := by
  unfold next at h
  have hle := Numeral.length_dropWhile_le isBlank cs
  split at h
  · simp at h
  · rename_i c ds hd
    have := length_startingWith c ds
    simp only [Option.some.injEq] at h
    rw [h] at this
    rw [hd, List.length_cons] at hle
    simp only at this
    omega

end Token

end MeshAccess.Json
