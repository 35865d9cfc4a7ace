import Placement.Decimal.Numeral
import Placement.Text.Blank
import Placement.Time.Timestamp
/-! # Time as text

Times are written in universal time: the date, a `T`, the time, as many groups of
three decimals of the second as are needed, and a `Z`.  Years outside the four digits carry a sign.

Reading is more generous: blanks may stand around the parts of the date and of
the time, numbers may be short, and the offset from universal time may leave out
its colon.
-/
namespace Placement

/-- A time as clocks show it.  Inside a leap second a clock shows second 60, and the
timestamp stays within the second before. -/
structure ClockTime where
  timestamp : Timestamp
  leap : Bool
  deriving DecidableEq

namespace ClockTime

/-- The time of a timestamp, which is in no leap second. -/
def ofTimestamp (t : Timestamp) : ClockTime := ⟨t, false⟩

/-- A number in digits, with zeros in front up to a width. -/
def padded (width n : Nat) : List Char :=
  let digits := Nat.toDigits 10 n
  List.replicate (width - digits.length) '0' ++ digits

/-- A year: four digits, or a sign and at least four. -/
def yearText (year : Int) : List Char :=
  if 0 ≤ year ∧ year ≤ 9999 then padded 4 year.toNat
  else (if year < 0 then '-' else '+') :: padded 4 year.natAbs

/-- The decimals of a second, in groups of three. -/
def fractionText (nanos : Nat) : List Char :=
  if nanos = 0 then []
  else if nanos % 1000000 = 0 then '.' :: padded 3 (nanos / 1000000)
  else if nanos % 1000 = 0 then '.' :: padded 6 (nanos / 1000)
  else '.' :: padded 9 nanos

/-- The text of a time. -/
def render (t : ClockTime) : String :=
  let date := t.timestamp.date
  let time := t.timestamp.timeOfDay.toNat
  let nanos := time % 1000000000
  let seconds := time / 1000000000
  let second := seconds % 60 + (if t.leap then 1 else 0)
  String.ofList <|
    yearText date.year ++ ['-'] ++ padded 2 date.month ++ ['-'] ++ padded 2 date.day ++ ['T']
      ++ padded 2 (seconds / 3600) ++ [':'] ++ padded 2 (seconds / 60 % 60) ++ [':']
      ++ padded 2 second ++ fractionText nanos ++ ['Z']

/-! ## Reading -/

/-- Drop blanks. -/
def skipBlanks (text : List Char) : List Char := text.dropWhile Blank.contains

/-- A number of one to `width` digits, after blanks. -/
def number? (width : Nat) (text : List Char) : Option (Nat × List Char) :=
  let text := skipBlanks text
  let digits := (text.take width).takeWhile Char.isDigit
  if digits.isEmpty then none else some (Numeral.ofDigits digits, text.drop digits.length)

/-- A year: up to four digits, or a sign and any number of digits. -/
def year? (text : List Char) : Option (Int × List Char) :=
  match skipBlanks text with
  | '-' :: rest => signed rest (-1)
  | '+' :: rest => signed rest 1
  | rest => (number? 4 rest).map fun (n, rest) => ((n : Int), rest)
where
  signed (rest : List Char) (sign : Int) : Option (Int × List Char) :=
    let (digits, rest) := Numeral.spanDigits rest
    if digits.isEmpty then none else some (sign * Numeral.ofDigits digits, rest)

/-- A certain character, after blanks. -/
def mark? (c : Char) (text : List Char) : Option (List Char) :=
  match skipBlanks text with
  | d :: rest => if d = c then some rest else none
  | [] => none

/-- The decimals of a second in nanoseconds, if there are any; digits beyond nine are
dropped. -/
def fraction? : List Char → Option (Nat × List Char)
  | '.' :: rest =>
      let digits := (rest.take 9).takeWhile Char.isDigit
      if digits.isEmpty then none
      else
        some (Numeral.ofDigits digits * Nat.pow 10 (9 - digits.length), rest.dropWhile Char.isDigit)
  | rest => some (0, rest)

/-- The offset from universal time in seconds. -/
def offset? (text : List Char) : Option (Int × List Char) :=
  match text with
  | 'Z' :: rest | 'z' :: rest => some (0, rest)
  | '+' :: rest => size rest 1
  | '-' :: rest | '\u2212' :: rest => size rest (-1)
  | a :: b :: c :: rest =>
      if String.ofList [a.toUpper, b.toUpper, c.toUpper] = "UTC" then some (0, rest) else none
  | _ => none
where
  size (text : List Char) (sign : Int) : Option (Int × List Char) :=
    match text with
    | a :: b :: rest =>
        match rest.dropWhile fun c => c = ':' || Blank.contains c with
        | c :: d :: rest =>
            if a.isDigit && b.isDigit && c.isDigit && d.isDigit && c < '6' then
              let hours := Numeral.ofDigits [a, b]
              let minutes := Numeral.ofDigits [c, d]
              if hours < 24 then some (sign * ((hours * 60 + minutes) * 60 : Nat), rest) else none
            else none
        | _ => none
    | _ => none

/-- The time that a whole text spells. -/
def parse? (text : String) : Option ClockTime := do
  let (year, rest) ← year? text.toList
  let rest ← mark? '-' rest
  let (month, rest) ← number? 2 rest
  let rest ← mark? '-' rest
  let (day, rest) ← number? 2 rest
  let rest ← match rest with
    | c :: rest => if c = 'T' ∨ c = 't' ∨ c = ' ' then some rest else none
    | [] => none
  let (hour, rest) ← number? 2 rest
  let rest ← mark? ':' rest
  let (minute, rest) ← number? 2 rest
  let rest ← mark? ':' rest
  let (second, rest) ← number? 2 rest
  let (nanos, rest) ← fraction? rest
  let (offset, rest) ← offset? (skipBlanks rest)
  if !(skipBlanks rest).isEmpty then none
  else if !Calendar.isValid ⟨year, month, day⟩ then none
  else if 23 < hour ∨ 59 < minute ∨ 60 < second then none
  else
    let leap : Bool := second = 60
    let seconds : Int := (hour * 60 + minute) * 60 + (if leap then 59 else second)
    -- the time on the local clock has to be representable too
    let here ← Timestamp.ofDate? ⟨year, month, day⟩ (seconds * 1000000000 + nanos)
    let t ← here.minus? (offset * 1000000000)
    some ⟨t, leap⟩

end ClockTime
end Placement
