import Placement.Decimal.Shortest
/-! # How doubles are written

Three texts of a double are needed, and they differ only in when the point is
written out and in how whole numbers are marked.  Each is one `FloatStyle`
value; the digits are always the shortest that read back.
-/
namespace Placement

/-- The choices left open once the digits of a double are known. -/
structure FloatStyle where
  /-- The positions of the point, counted from the first digit, that are written
  out with zeros; others are written as a power of ten. -/
  writtenOut : Int → Bool
  /-- Whether whole numbers end in `.0`. -/
  marksWhole : Bool

namespace FloatStyle

/-- The value of a double as text: never a power of ten, and no mark on whole numbers. -/
def value : FloatStyle := ⟨fun _ => true, false⟩

/-- A double inside a message: written out from `0.0001` to below `1e16`, whole
numbers marked. -/
def message : FloatStyle := ⟨fun point => -3 ≤ point && point ≤ 16, true⟩

/-- A double inside a JSON document: written out from `0.00001` to below `1e16`,
whole numbers marked. -/
def document : FloatStyle := ⟨fun point => -4 ≤ point && point ≤ 16, true⟩

/-- Write the digits `digits`, the point standing after the first `point` of them. -/
def place (style : FloatStyle) (digits : List Char) (point : Int) : List Char :=
  if style.writtenOut point then
    if point ≤ 0 then
      '0' :: '.' :: (List.replicate (-point).toNat '0' ++ digits)
    else if point.toNat < digits.length then
      digits.take point.toNat ++ '.' :: digits.drop point.toNat
    else
      digits ++ List.replicate (point.toNat - digits.length) '0'
        ++ (if style.marksWhole then ['.', '0'] else [])
  else
    let rest := digits.drop 1
    digits.take 1 ++ (if rest.isEmpty then [] else '.' :: rest)
      ++ 'e' :: (toString (point - 1)).toList

/-- The text of a double. -/
def render (style : FloatStyle) (x : Float) : String :=
  match Magnitude.ofFloat x with
  | .undefined => "NaN"
  | .infinite negative => if negative then "-inf" else "inf"
  | .finite b =>
      let sign := if b.negative then ['-'] else []
      if b.significand = 0 then
        String.ofList (sign ++ '0' :: (if style.marksWhole then ['.', '0'] else []))
      else
        let d := Decimal.shortest b
        let digits := Nat.toDigits 10 d.digits
        String.ofList (sign ++ style.place digits (digits.length + d.exponent))

end FloatStyle
end Placement
