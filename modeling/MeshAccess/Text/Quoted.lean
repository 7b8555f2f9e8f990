import MeshAccess.Text.Hidden
import MeshAccess.Text.Positional

/-!
# Quoted text in messages

Messages show a text between double quotes. The quote and the backslash are escaped, tab, line
feed, carriage return and NUL have short escapes, other hidden characters are spelled by their
code point, and all else stands for itself.
-/

namespace MeshAccess.Text

/-- The form of one character inside a quoted text. -/
def quotedChar (c : Char) : List Char :=
  match c with
  | '\x22' => ['\\', '\x22']
  | '\\' => ['\\', '\\']
  | '\t' => ['\\', 't']
  | '\n' => ['\\', 'n']
  | '\r' => ['\\', 'r']
  | '\x00' => ['\\', '0']
  | c =>
    if isHidden c then ['\\', 'u', '\x7b'] ++ Positional.write 16 c.toNat ++ ['\x7d']
    else [c]

/-- The text between double quotes, with hidden characters spelled out. -/
def quoted (s : String) : String :=
  String.ofList ('\x22' :: s.toList.flatMap quotedChar ++ ['\x22'])

end MeshAccess.Text
