import MeshAccess.Json.Fault
import MeshAccess.Text.Positional
import MeshAccess.Text.Split

/-!
# String literals

`escape` writes the inside of a string literal. There are two ways over a literal in a document:
`read` gives its text, in which surrogate escapes have to come in pairs, and `skip` only finds its
end, whatever code units its escapes name. Both start behind the opening quote and give what
follows the closing one.
-/

namespace MeshAccess.Json.Literal

open MeshAccess.Text

/-- The form of one character inside a string literal. -/
def escapeChar (c : Char) : List Char :=
  match c with
  | '\x22' => ['\\', '\x22']
  | '\\' => ['\\', '\\']
  | '\x08' => ['\\', 'b']
  | '\x0c' => ['\\', 'f']
  | '\n' => ['\\', 'n']
  | '\r' => ['\\', 'r']
  | '\t' => ['\\', 't']
  | c =>
    if c.toNat < 0x20 then
      ['\\', 'u', '0', '0', Positional.digit (c.toNat / 16), Positional.digit (c.toNat % 16)]
    else [c]

/-- The inside of the string literal for a text. -/
def escape (cs : List Char) : List Char := cs.flatMap escapeChar

/-- The character that a backslash and `c` stand for. -/
def shortEscape? (c : Char) : Option Char :=
  match c with
  | '\x22' => some '\x22'
  | '\\' => some '\\'
  | '/' => some '/'
  | 'b' => some '\x08'
  | 'f' => some '\x0c'
  | 'n' => some '\n'
  | 'r' => some '\r'
  | 't' => some '\t'
  | _ => none

/-- The code unit that the four digits at the start of `cs` name. The text is cut short if fewer
than four bytes are left. -/
def codeUnit (cs : List Char) : Except Fault Nat :=
  match (cs.take 4).length, Positional.read? 16 (cs.take 4) with
  | 4, some n => .ok n
  | _, _ => if utf8Length (cs.take 4) < 4 then .error .cutShort else .error .malformed

/-- Whether a code unit opens a surrogate pair. -/
def isLeading (n : Nat) : Bool := decide (0xd800 ≤ n) && decide (n < 0xdc00)

/-- Whether a code unit closes a surrogate pair. -/
def isTrailing (n : Nat) : Bool := decide (0xdc00 ≤ n) && decide (n < 0xe000)

/-- The character of a surrogate pair. -/
def pairChar (lead trail : Nat) : Char :=
  Char.ofNat ((lead - 0xd800) * 0x400 + (trail - 0xdc00) + 0x10000)

/-- The text of a literal, after the characters of `seen` in reverse, and what follows it. -/
def read (seen : List Char) : List Char → Except Fault (List Char × List Char)
  | [] => .error .cutShort
  | '\x22' :: rest => .ok (seen.reverse, rest)
  | '\\' :: 'u' :: cs =>
    match codeUnit cs with
    | .error f => .error f
    | .ok lead =>
      if isTrailing lead then .error .malformed
      else if isLeading lead then
        match _h : cs.drop 4 with
        | [] => .error .cutShort
        | ['\\'] => .error .cutShort
        | '\\' :: 'u' :: ds =>
          match codeUnit ds with
          | .error f => .error f
          | .ok trail =>
            if isTrailing trail then read (pairChar lead trail :: seen) (ds.drop 4)
            else .error .malformed
        | _ => .error .malformed
      else read (Char.ofNat lead :: seen) (cs.drop 4)
  | '\\' :: e :: cs =>
    match shortEscape? e with
    | some c => read (c :: seen) cs
    | none => .error .malformed
  | ['\\'] => .error .cutShort
  | c :: cs => if c.toNat < 0x20 then .error .malformed else read (c :: seen) cs
termination_by cs => cs.length
decreasing_by
  · have := congrArg List.length _h
    simp only [List.length_drop, List.length_cons] at this ⊢
    omega
  · simp only [List.length_drop, List.length_cons]; omega
  · simp only [List.length_cons]; omega
  · simp only [List.length_cons]; omega

/-- What follows a literal, whatever its escapes name. -/
def skip : List Char → Except Fault (List Char)
  | [] => .error .cutShort
  | '\x22' :: rest => .ok rest
  | '\\' :: 'u' :: cs =>
    match codeUnit cs with
    | .error f => .error f
    | .ok _ => skip (cs.drop 4)
  | '\\' :: e :: cs => if (shortEscape? e).isSome then skip cs else .error .malformed
  | ['\\'] => .error .cutShort
  | c :: cs => if c.toNat < 0x20 then .error .malformed else skip cs
termination_by cs => cs.length
decreasing_by
  · simp only [List.length_drop, List.length_cons]; omega
  · simp only [List.length_cons]; omega
  · simp only [List.length_cons]; omega

theorem length_of_read {seen cs text rest : List Char} (h : read seen cs = .ok (text, rest)) :
    rest.length < cs.length := by
  fun_induction read seen cs with
  | case8 seen cs lead _ _ _ ds hds trail _ _ ih =>
    have hlen := congrArg List.length hds
    have := ih h
    simp only [List.length_drop, List.length_cons] at hlen this ⊢
    omega
  | _ => grind

theorem length_of_skip {cs rest : List Char} (h : skip cs = .ok rest) :
    rest.length < cs.length := by
  fun_induction skip cs <;> grind

end MeshAccess.Json.Literal
