/-! # Numerals

Reading numbers written in decimal digits.  Whole numbers are read exactly;
numbers with a fraction or a power of ten become **the double nearest to the
written number**, the one with the even significand on a tie.
-/
namespace Placement

namespace Numeral

/-- The number written by decimal digits. -/
def ofDigits (digits : List Char) : Nat := Nat.ofDigitChars 10 digits 0

/-- The double nearest to `whole.fraction * 10 ^ exponent`. -/
def toFloat (whole fraction : List Char) (exponent : Int) : Float :=
  let shifted := exponent - fraction.length
  let digits := ofDigits (whole ++ fraction)
  if 0 ≤ shifted then Float.ofScientific digits false shifted.toNat
  else Float.ofScientific digits true (-shifted).toNat

/-- Split a text after its leading decimal digits. -/
def spanDigits (text : List Char) : List Char × List Char :=
  (text.takeWhile Char.isDigit, text.dropWhile Char.isDigit)

/-- A sign in front of digits: whether it is a minus, and what follows it. -/
def sign : List Char → Bool × List Char
  | '-' :: rest => (true, rest)
  | '+' :: rest => (false, rest)
  | text => (false, text)

/-- A power of ten, `e` or `E` with an optional sign and at least one digit, and
what follows it. -/
def exponent? : List Char → Option (Int × List Char)
  | c :: rest =>
      if c = 'e' ∨ c = 'E' then
        let (negative, rest) := sign rest
        let (digits, rest) := spanDigits rest
        if digits.isEmpty then none
        else
          let size : Int := ofDigits digits
          some (if negative then -size else size, rest)
      else none
  | [] => none

/-- A whole text read as an integer: an optional sign and at least one digit. -/
def readInt? (text : String) : Option Int :=
  let (negative, rest) := sign text.toList
  if rest.isEmpty || rest.any fun c => !c.isDigit then none
  else
    let size : Int := ofDigits rest
    some (if negative then -size else size)

/-- The names of the doubles that are no numbers, in lower case. -/
def special? (name : List Char) : Option Float :=
  let name := String.ofList (name.map Char.toLower)
  if name = "inf" ∨ name = "infinity" then some (1.0 / 0.0)
  else if name = "nan" then some (0.0 / 0.0)
  else none

/-- A whole text read as a double: an optional sign, then digits with an optional
point among or around them and an optional power of ten, or the name of a double
that is no number. -/
def readFloat? (text : String) : Option Float :=
  let (negative, rest) := sign text.toList
  let (whole, afterWhole) := spanDigits rest
  let (fraction, afterFraction) := match afterWhole with
    | '.' :: more => spanDigits more
    | more => ([], more)
  let magnitude :=
    if whole.isEmpty && fraction.isEmpty then special? rest
    else
      match afterFraction with
      | [] => some (toFloat whole fraction 0)
      | more =>
          match exponent? more with
          | some (exponent, []) => some (toFloat whole fraction exponent)
          | _ => none
  magnitude.map fun x => if negative then -x else x

end Numeral
end Placement
