/-! # The binary number behind a double

Every finite double is a sign and a magnitude `m * 2 ^ q` with a whole `m`.
Everything that prints, truncates or compares doubles exactly starts from this
pair, so it is whole-number arithmetic and can be reasoned about.
-/
namespace Placement

/-- The magnitude of a finite double, `significand * 2 ^ exponent`, and its sign. -/
structure Binary where
  negative : Bool
  significand : Nat
  exponent : Int
  deriving DecidableEq, Repr

/-- What a double stands for. -/
inductive Magnitude
  | finite (value : Binary)
  | infinite (negative : Bool)
  | undefined
  deriving DecidableEq, Repr

namespace Magnitude

/-- The bits that hold the fraction. -/
def fractionBits : Nat := 52

/-- Read the three fields of a double: the sign, eleven bits of exponent and the
fraction.  The smallest exponent field marks magnitudes without the leading one,
the largest marks infinities and undefined results. -/
def ofBits (bits : Nat) : Magnitude :=
  let negative := bits.testBit 63
  let field : Nat := (bits >>> fractionBits) % 2048
  let fraction := bits % (1 <<< fractionBits)
  if field = 2047 then
    if fraction = 0 then .infinite negative else .undefined
  else if field = 0 then
    .finite ⟨negative, fraction, -1074⟩
  else
    .finite ⟨negative, (1 <<< fractionBits) + fraction, (field : Int) - 1075⟩

/-- What the double `x` stands for. -/
def ofFloat (x : Float) : Magnitude := ofBits x.toBits.toNat

end Magnitude

namespace Binary

/-- The magnitude rounded toward zero, with its sign. -/
def truncate (b : Binary) : Int :=
  let whole : Nat :=
    if 0 ≤ b.exponent then b.significand <<< b.exponent.toNat
    else b.significand >>> (-b.exponent).toNat
  if b.negative then -(whole : Int) else whole

end Binary

/-- A finite double rounded toward zero; nothing for infinities and undefined results. -/
def truncate? (x : Float) : Option Int :=
  match Magnitude.ofFloat x with
  | .finite b => some b.truncate
  | _ => none

example : truncate? 2.75 = some 2 := by decide
example : truncate? (-2.75) = some (-2) := by decide
example : truncate? 1e20 = some 100000000000000000000 := by decide
example : truncate? (1.0 / 0.0) = none := by decide

end Placement
