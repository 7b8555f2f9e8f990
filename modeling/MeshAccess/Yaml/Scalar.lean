import MeshAccess.Text.Split
import MeshAccess.Yaml.Plain

/-!
# Scalars

How a text is written in YAML. A text with line feeds is a literal block, a text that would read as
something else is put between single quotes, and any other is plain. Where the style does not allow
the text, a plain scalar becomes a single quoted one, and a single quoted or literal one becomes a
double quoted one, which can hold any text.
-/

namespace MeshAccess.Yaml

open MeshAccess.Text

/-! ## Classes of characters -/

/-- A character that ends a line. -/
def isBreak (c : Char) : Bool :=
  c == '\n' || c == '\r' || c == '\u0085' || c == '\u2028' || c == '\u2029'

/-- A character that may stand in any style but the double quoted one. -/
def isPrintable (c : Char) : Bool :=
  let n := c.toNat
  n == 0xa || (decide (0x20 ≤ n) && decide (n ≤ 0x7e)) ||
    (decide (0xa0 ≤ n) && decide (n ≤ 0xfffd) && n != 0xfeff) || decide (0x10000 ≤ n)

/-- White space, a line end or NUL. -/
def isSeparator (c : Char) : Bool := c == ' ' || c == '\t' || c == '\x00' || isBreak c

/-- Whether a rest of a text is empty or begins with a separator. -/
def isSeparated : List Char → Bool
  | [] => true
  | c :: _ => isSeparator c

/-! ## What a text allows -/

/-- Whether some character for which `p` holds comes right before one for which `q` holds. -/
def hasPair (p q : Char → Bool) : List Char → Bool
  | c :: d :: cs => (p c && q d) || hasPair p q (d :: cs)
  | _ => false

/-- Whether an indicator stands behind the first character: a colon before a separator or a hash
behind one. -/
def hasInnerIndicator : List Char → Bool
  | [] => false
  | [c] => c == ':'
  | c :: d :: cs =>
    (c == ':' && isSeparator d) || (isSeparator c && d == '#') || hasInnerIndicator (d :: cs)

/-- The characters that a plain scalar cannot begin with. -/
def startIndicators : List Char :=
  ['#', ',', '[', ']', '\x7b', '\x7d', '&', '*', '!', '|', '>', '\x27', '\x22', '%', '@', '\x60']

/-- Whether a text has the form of other parts of a document. -/
def hasIndicator (cs : List Char) : Bool :=
  (dropStart? ['-', '-', '-'] cs).isSome || (dropStart? ['.', '.', '.'] cs).isSome ||
    (match cs with
      | [] => false
      | c :: rest =>
        startIndicators.contains c || ((c == '?' || c == '-') && isSeparated rest)) ||
    hasInnerIndicator cs

/-- Whether a space comes right behind a line end. -/
def hasBreakSpace (cs : List Char) : Bool := hasPair isBreak (· == ' ') cs

/-- Whether a text cannot be single quoted or literal: it holds characters that only escapes can
spell, or a space right before a line end. -/
def needsEscapes (cs : List Char) : Bool :=
  cs.any (fun c => !isPrintable c) || hasPair (· == ' ') isBreak cs

/-- Whether a text may be a plain scalar. -/
def allowsPlain (cs : List Char) : Bool :=
  !needsEscapes cs && !cs.any isBreak && !hasIndicator cs &&
    cs.head? != some ' ' && cs.getLast? != some ' '

/-- Whether a text may stand between single quotes. -/
def allowsSingle (cs : List Char) : Bool := !needsEscapes cs && !hasBreakSpace cs

/-- Whether a text may be a literal block. -/
def allowsLiteral (cs : List Char) : Bool :=
  !needsEscapes cs && !cs.isEmpty && cs.getLast? != some ' '

/-! ## Styles -/

/-- How a scalar is written. -/
inductive Style where
  | plain
  | single
  | double
  | literal
  deriving DecidableEq, Repr

/-- The style of a text. -/
def style (s : String) : Style :=
  let cs := s.toList
  if '\n' ∈ cs then (if allowsLiteral cs then .literal else .double)
  else if !isAmbiguous s && allowsPlain cs then .plain
  else if allowsSingle cs then .single
  else .double

/-- Spaces up to a column. -/
def pad (column : Nat) : List Char := List.replicate column ' '

/-- The characters of a single quoted text: a quote is doubled, and what follows line ends begins
at the given column. -/
def singleBody (column : Nat) (behindBreak : Bool) : List Char → List Char
  | [] => if behindBreak then pad column else []
  | c :: cs =>
    if isBreak c then c :: singleBody column true cs
    else
      (if behindBreak then pad column else []) ++ (if c = '\x27' then [c, c] else [c]) ++
        singleBody column false cs

/-- The upper case digits of a code point, `width` of them. -/
def hexDigits : (width n : Nat) → List Char
  | 0, _ => []
  | width + 1, n => hexDigits width (n / 16) ++ [(Positional.digit (n % 16)).toUpper]

/-- The form of a character between double quotes. -/
def doubleChar (c : Char) : List Char :=
  match c with
  | '\x00' => ['\\', '0']
  | '\x07' => ['\\', 'a']
  | '\x08' => ['\\', 'b']
  | '\t' => ['\\', 't']
  | '\n' => ['\\', 'n']
  | '\x0b' => ['\\', 'v']
  | '\x0c' => ['\\', 'f']
  | '\r' => ['\\', 'r']
  | '\x1b' => ['\\', 'e']
  | '\x22' => ['\\', '\x22']
  | '\\' => ['\\', '\\']
  | '\u0085' => ['\\', 'N']
  | '\u2028' => ['\\', 'L']
  | '\u2029' => ['\\', 'P']
  | c =>
    if isPrintable c then [c]
    else if c.toNat ≤ 0xff then '\\' :: 'x' :: hexDigits 2 c.toNat
    else if c.toNat ≤ 0xffff then '\\' :: 'u' :: hexDigits 4 c.toNat
    else '\\' :: 'U' :: hexDigits 8 c.toNat

/-- The mark behind the bar of a literal block: the width of the indentation if the text begins
with white space, and whether its last line ends are dropped, kept or are just one. -/
def literalHint (cs : List Char) : List Char :=
  let width := if cs.head?.any fun c => c == ' ' || isBreak c then ['2'] else []
  let ends :=
    match cs.reverse with
    | [] => ['-']
    | [c] => if isBreak c then ['+'] else ['-']
    | c :: d :: _ => if !isBreak c then ['-'] else if isBreak d then ['+'] else []
  width ++ ends

/-- The lines of a literal block at a column. -/
def literalBody (column : Nat) (behindBreak : Bool) : List Char → List Char
  | [] => []
  | c :: cs =>
    if isBreak c then c :: literalBody column true cs
    else (if behindBreak then pad column else []) ++ c :: literalBody column false cs

/-- The text of a scalar whose further lines begin at `column`. -/
def scalar (column : Nat) (s : String) : List Char :=
  let cs := s.toList
  match style s with
  | .plain => cs
  | .single => '\x27' :: singleBody column false cs ++ ['\x27']
  | .double => '\x22' :: cs.flatMap doubleChar ++ ['\x22']
  | .literal => '|' :: literalHint cs ++ '\n' :: literalBody column true cs

/-- Whether a text can be a key on the line of its value: one line of at most 128 bytes. -/
def isSimpleKey (s : String) : Bool := !s.toList.any isBreak && decide (s.utf8ByteSize ≤ 128)

end MeshAccess.Yaml
