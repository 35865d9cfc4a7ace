import Placement.Expression
import Placement.Expression.Fault
import Placement.Version
/-! # Operators

What the operators of the language do with values.  Whole numbers are exact: a
result that 64 bits cannot hold is a fault, never a wrapped number.  A whole
number next to a double is taken as the nearest double.
-/
namespace Placement

/-- The whole number `n`; a fault if 64 bits cannot hold it. -/
def exactly (n : Int) : Except Fault Value :=
  match Value.int64? n with
  | some i => .ok (.int i)
  | none => .error (.arithmetic .overflow)

/-- The fault of an operation on values of kinds it is not defined for. -/
def mismatch (operation : String) (args : List Value) : Fault :=
  .noSuchOverload operation (args.map Value.kind)

namespace PrefixOp

/-- The operator in messages. -/
def symbol : PrefixOp → String
  | .not => "!_"
  | .negate => "-_"

/-- Apply the operator. -/
def apply : PrefixOp → Value → Except Fault Value
  | .not, .bool b => .ok (.bool (!b))
  | .negate, .int n => exactly (-n.toInt)
  | .negate, .float x => .ok (.float (-x))
  | op, v => .error (mismatch op.symbol [v])

end PrefixOp

namespace Arithmetic

/-- The operator in messages. -/
def symbol : Arithmetic → String
  | .add => "_+_"
  | .subtract => "_-_"
  | .multiply => "_*_"
  | .divide => "_/_"
  | .modulo => "_%_"

/-- The operator on whole numbers.  Division truncates toward zero and the
remainder has the sign of the dividend; the remainder of the least number by `-1`
goes with a quotient that does not exist. -/
def onInts (op : Arithmetic) (a b : Int64) : Except Fault Value :=
  match op with
  | .add => exactly (a.toInt + b.toInt)
  | .subtract => exactly (a.toInt - b.toInt)
  | .multiply => exactly (a.toInt * b.toInt)
  | .divide =>
      if b = 0 then .error (.arithmetic .divisionByZero) else exactly (a.toInt.tdiv b.toInt)
  | .modulo =>
      if b = 0 then .error (.arithmetic .modulusByZero)
      else if a = Int64.minValue ∧ b = -1 then .error (.arithmetic .overflow)
      else exactly (a.toInt.tmod b.toInt)

/-- The operator on doubles; there is no remainder. -/
def onFloats? (op : Arithmetic) (a b : Float) : Option Float :=
  match op with
  | .add => some (a + b)
  | .subtract => some (a - b)
  | .multiply => some (a * b)
  | .divide => some (a / b)
  | .modulo => none

/-- Apply the operator. -/
def apply (op : Arithmetic) (left right : Value) : Except Fault Value :=
  match op, left, right with
  | op, .int a, .int b => op.onInts a b
  | .add, .string a, .string b => .ok (.string (a ++ b))
  | .add, .list a, .list b => .ok (.list (a ++ b))
  | op, left, right =>
      let result := do
        let a ← left.number?
        let b ← right.number?
        op.onFloats? a b
      match result with
      | some x => .ok (.float x)
      | none => .error (mismatch op.symbol [left, right])

end Arithmetic

namespace Value

mutual

/-- **Equality of the language**: values of one kind with equal contents, and numbers
of equal size. -/
def alike : Value → Value → Bool
  | .null, .null => true
  | .bool a, .bool b => a == b
  | .int a, .int b => a == b
  | .int a, .float b => Float.ofInt a.toInt == b
  | .float a, .int b => Float.ofInt b.toInt == a
  | .float a, .float b => a == b
  | .string a, .string b => a == b
  | .list a, .list b => alikeItems a b
  | .map a, .map b => a.length == b.length && alikeEntries a b
  | _, _ => false

def alikeItems : List Value → List Value → Bool
  | [], [] => true
  | a :: s, b :: t => alike a b && alikeItems s t
  | _, _ => false

/-- Each entry has an equal one among the others. -/
def alikeEntries : List (String × Value) → List (String × Value) → Bool
  | [], _ => true
  | (key, a) :: s, others =>
      (match Entries.find? key others with
        | some b => alike a b
        | none => false) && alikeEntries s others

end

/-- Texts by version order if both are versions, otherwise by their characters. -/
def compareStrings (a b : String) : Ordering :=
  match Version.parse? a, Version.parse? b with
  | some a, some b => compare a b
  | _, _ => compare a b

/-- The order of two doubles; none if one is undefined. -/
def compareFloats? (a b : Float) : Option Ordering :=
  if a < b then some .lt else if b < a then some .gt else if a == b then some .eq else none

/-- The order of two values; none if they have none. -/
def order? : Value → Value → Option Ordering
  | .int a, .int b => some (compare a.toInt b.toInt)
  | .string a, .string b => some (compareStrings a b)
  | .bool a, .bool b => some (compare a b)
  | a, b => do compareFloats? (← a.number?) (← b.number?)

/-- Whether a value is an element of a list or a key of a map. -/
def within (item : Value) : Value → Except Fault Bool
  | .list items => .ok (items.any fun other => item.alike other)
  | .map entries =>
      match item with
      | .string key => .ok (Entries.find? key entries).isSome
      | _ => .ok false
  | container => .error (mismatch "@in" [item, container])

end Value

namespace Comparison

/-- The operator in messages. -/
def symbol : Comparison → String
  | .less => "_<_"
  | .lessEqual => "_<=_"
  | .greater => "_>_"
  | .greaterEqual => "_>=_"
  | .equal => "_==_"
  | .notEqual => "_!=_"
  | .within => "@in"

/-- The order of two values that the operator needs. -/
def order (op : Comparison) (left right : Value) : Except Fault Ordering :=
  match left.order? right with
  | some o => .ok o
  | none => .error (mismatch op.symbol [left, right])

/-- Apply the operator. -/
def apply (op : Comparison) (left right : Value) : Except Fault Bool :=
  match op with
  | .equal => .ok (left.alike right)
  | .notEqual => .ok (!left.alike right)
  | .less => (op.order left right).map Ordering.isLT
  | .lessEqual => (op.order left right).map Ordering.isLE
  | .greater => (op.order left right).map Ordering.isGT
  | .greaterEqual => (op.order left right).map Ordering.isGE
  | .within => left.within right

end Comparison
end Placement
