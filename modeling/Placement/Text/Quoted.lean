import Placement.Text.Printable
import Placement.Text.Combining
/-! # Quoted text in messages

A text inside a message stands in double quotes.  Tab, carriage return, line
feed, quote, backslash and the zero character have short escapes; a character
that cannot be shown, or that would attach itself to the one before it, is
written by its number.  Single quotes stay as they are.
-/
namespace Placement
namespace Quoted

/-- The number of a character, in hexadecimal between braces. -/
def byNumber (c : Char) : List Char :=
  ['\\', 'u', '\x7b'] ++ Nat.toDigits 16 c.toNat ++ ['\x7d']

/-- One character of a quoted text. -/
def escape (c : Char) : List Char :=
  match c with
  | '\x00' => ['\\', '0']
  | '\t' => ['\\', 't']
  | '\r' => ['\\', 'r']
  | '\n' => ['\\', 'n']
  | '"' => ['\\', '"']
  | '\\' => ['\\', '\\']
  | c => if Combining.contains c || !Printable.contains c then byNumber c else [c]

/-- The quoted form of a text. -/
def encode (s : String) : String :=
  String.ofList ('"' :: (s.toList.flatMap escape ++ ['"']))

end Quoted
end Placement
