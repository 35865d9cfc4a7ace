import Placement.Json
import Placement.Decimal.Notation
/-! # Writing JSON

The text of a document, without blanks: fields in their order, whole numbers as
digits, doubles with a point or a power of ten, so that **no two kinds of number
share a spelling**.
-/
namespace Placement
namespace Json

/-- A hexadecimal digit, in lower case. -/
def hexDigit (n : Nat) : Char := Nat.digitChar (n % 16)

/-- One character inside a quoted text.  The quote, the backslash and control
characters are escaped. -/
def escapeChar (c : Char) : List Char :=
  if c = '"' then ['\\', '"']
  else if c = '\\' then ['\\', '\\']
  else if c = '\n' then ['\\', 'n']
  else if c = '\r' then ['\\', 'r']
  else if c = '\t' then ['\\', 't']
  else if c = '\x08' then ['\\', 'b']
  else if c = '\x0c' then ['\\', 'f']
  else if c.toNat < 0x20 then
    ['\\', 'u', '0', '0', hexDigit (c.toNat / 16), hexDigit c.toNat]
  else [c]

/-- A quoted text. -/
def quote (s : String) : List Char := '"' :: (s.toList.flatMap escapeChar ++ ['"'])

/-- Join written parts by commas. -/
def commas : List (List Char) → List Char
  | [] => []
  | [part] => part
  | part :: rest => part ++ ',' :: commas rest

mutual

/-- The characters of a document. -/
def chars : Json → List Char
  | .null => "null".toList
  | .bool b => (if b then "true" else "false").toList
  | .int n => (toString n).toList
  | .float x => (FloatStyle.document.render x.val).toList
  | .string s => quote s
  | .array items => '[' :: (commas (charsOfItems items) ++ [']'])
  | .object fields => '\x7b' :: (commas (charsOfFields fields) ++ ['\x7d'])

def charsOfItems : List Json → List (List Char)
  | [] => []
  | item :: rest => chars item :: charsOfItems rest

def charsOfFields : List (String × Json) → List (List Char)
  | [] => []
  | (name, x) :: rest => (quote name ++ ':' :: chars x) :: charsOfFields rest

end

/-- The text of a document. -/
def render (j : Json) : String := String.ofList j.chars

end Json
end Placement
