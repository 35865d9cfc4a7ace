import Placement.Json
import Placement.Decimal.Numeral
/-! # Reading JSON

A number written without point and power of ten is a whole number, any other is
the nearest double.  A whole number that does not fit 64 bits is read as a
double, and so is `-0`, which keeps its sign.

Two things are simpler here than in readers that are in use: these may round a long
number twice, so that they end up at the double next to the nearest one, and they
refuse documents that are nested more than 127 levels deep.
-/
namespace Placement
namespace Json
namespace Reader

/-- Drop blanks. -/
def skipBlanks : List Char → List Char :=
  List.dropWhile fun c => c = ' ' || c = '\t' || c = '\n' || c = '\r'

/-- The value of a hexadecimal digit. -/
def hexValue? (c : Char) : Option Nat :=
  if '0' ≤ c ∧ c ≤ '9' then some (c.toNat - '0'.toNat)
  else if 'a' ≤ c ∧ c ≤ 'f' then some (c.toNat - 'a'.toNat + 10)
  else if 'A' ≤ c ∧ c ≤ 'F' then some (c.toNat - 'A'.toNat + 10)
  else none

/-- The number of four hexadecimal digits, and what follows them. -/
def hex4? : List Char → Option (Nat × List Char)
  | a :: b :: c :: d :: rest =>
      match hexValue? a, hexValue? b, hexValue? c, hexValue? d with
      | some a, some b, some c, some d => some (((a * 16 + b) * 16 + c) * 16 + d, rest)
      | _, _, _, _ => none
  | _ => none

/-- The character of an escape by number, after `\u`: one unit, or the two halves
of a character beyond the first plane. -/
def escaped? (text : List Char) : Option (Char × List Char) := do
  let (high, rest) ← hex4? text
  if 0xD800 ≤ high ∧ high < 0xDC00 then
    match rest with
    | '\\' :: 'u' :: rest =>
        let (low, rest) ← hex4? rest
        if 0xDC00 ≤ low ∧ low < 0xE000 then
          some (Char.ofNat (0x10000 + (high - 0xD800) * 0x400 + (low - 0xDC00)), rest)
        else none
    | _ => none
  else if 0xDC00 ≤ high ∧ high < 0xE000 then none
  else some (Char.ofNat high, rest)

/-- The text up to the closing quote, and what follows it.  `fuel` bounds the
number of characters. -/
def quoted? : Nat → List Char → List Char → Option (String × List Char)
  | 0, _, _ => none
  | fuel + 1, acc, text =>
      match text with
      | '"' :: rest => some (String.ofList acc.reverse, rest)
      | '\\' :: 'u' :: rest =>
          match escaped? rest with
          | some (c, rest) => quoted? fuel (c :: acc) rest
          | none => none
      | '\\' :: c :: rest =>
          match c with
          | '"' => quoted? fuel ('"' :: acc) rest
          | '\\' => quoted? fuel ('\\' :: acc) rest
          | '/' => quoted? fuel ('/' :: acc) rest
          | 'b' => quoted? fuel ('\x08' :: acc) rest
          | 'f' => quoted? fuel ('\x0c' :: acc) rest
          | 'n' => quoted? fuel ('\n' :: acc) rest
          | 'r' => quoted? fuel ('\r' :: acc) rest
          | 't' => quoted? fuel ('\t' :: acc) rest
          | _ => none
      | c :: rest => if c.toNat < 0x20 then none else quoted? fuel (c :: acc) rest
      | [] => none

/-- A whole number as a document, as a double if it needs more than 64 bits. -/
def ofWhole (negative : Bool) (digits : List Char) : Option Json :=
  let size := Numeral.ofDigits digits
  let double : Float :=
    let x := Numeral.toFloat digits [] 0
    if negative then -x else x
  if negative then
    if size = 0 ∨ 0x8000000000000000 < size then finite? double else some (.int (-(size : Int)))
  else if size < 0x10000000000000000 then some (.int size)
  else finite? double
where
  finite? (x : Float) : Option Json := if h : x.isFinite = true then some (.float ⟨x, h⟩) else none

/-- A number, and what follows it. -/
def number? (text : List Char) : Option (Json × List Char) := do
  let (negative, rest) := match text with
    | '-' :: rest => (true, rest)
    | rest => (false, rest)
  let (whole, rest) := Numeral.spanDigits rest
  if whole.isEmpty || (whole.head? == some '0' && 1 < whole.length) then none
  else
    let (fraction, rest) ← match rest with
      | '.' :: more =>
          let (fraction, more) := Numeral.spanDigits more
          if fraction.isEmpty then none else some (some fraction, more)
      | more => some (none, more)
    let marked : Bool := match rest with
      | c :: _ => c = 'e' || c = 'E'
      | [] => false
    if marked then
      let (exponent, rest) ← Numeral.exponent? rest
      let x := Numeral.toFloat whole (fraction.getD []) exponent
      let j ← ofWhole.finite? (if negative then -x else x)
      some (j, rest)
    else
      match fraction with
      | some fraction =>
          let x := Numeral.toFloat whole fraction 0
          let j ← ofWhole.finite? (if negative then -x else x)
          some (j, rest)
      | none =>
          let j ← ofWhole negative whole
          some (j, rest)

mutual

/-- The document at the head of a text, and what follows it.  `fuel` bounds the
number of steps. -/
def value? : Nat → List Char → Option (Json × List Char)
  | 0, _ => none
  | fuel + 1, text =>
      match skipBlanks text with
      | 'n' :: 'u' :: 'l' :: 'l' :: rest => some (.null, rest)
      | 't' :: 'r' :: 'u' :: 'e' :: rest => some (.bool true, rest)
      | 'f' :: 'a' :: 'l' :: 's' :: 'e' :: rest => some (.bool false, rest)
      | '"' :: rest => (quoted? (fuel + 1) [] rest).map fun (s, rest) => (.string s, rest)
      | '[' :: rest =>
          match skipBlanks rest with
          | ']' :: rest => some (.array [], rest)
          | rest => (items? fuel rest).map fun (xs, rest) => (.array xs, rest)
      | '\x7b' :: rest =>
          match skipBlanks rest with
          | '\x7d' :: rest => some (.object [], rest)
          | rest => (fields? fuel rest).map fun (fs, rest) => (ofFields fs, rest)
      | rest => number? rest

/-- The documents up to the closing bracket. -/
def items? : Nat → List Char → Option (List Json × List Char)
  | 0, _ => none
  | fuel + 1, text => do
      let (x, rest) ← value? fuel text
      match skipBlanks rest with
      | ',' :: rest =>
          let (xs, rest) ← items? fuel rest
          some (x :: xs, rest)
      | ']' :: rest => some ([x], rest)
      | _ => none

/-- The fields up to the closing brace. -/
def fields? : Nat → List Char → Option (List (String × Json) × List Char)
  | 0, _ => none
  | fuel + 1, text =>
      match skipBlanks text with
      | '"' :: rest => do
          let (name, rest) ← quoted? (fuel + 1) [] rest
          match skipBlanks rest with
          | ':' :: rest =>
              let (x, rest) ← value? fuel rest
              match skipBlanks rest with
              | ',' :: rest =>
                  let (fs, rest) ← fields? fuel rest
                  some ((name, x) :: fs, rest)
              | '\x7d' :: rest => some ([(name, x)], rest)
              | _ => none
          | _ => none
      | _ => none

end

end Reader

/-- The document that a whole text spells. -/
def parse? (text : String) : Option Json :=
  let chars := text.toList
  match Reader.value? (2 * chars.length + 2) chars with
  | some (j, rest) => if (Reader.skipBlanks rest).isEmpty then some j else none
  | none => none

end Json
end Placement
