import Placement.Expression.Operators
import Placement.Pattern.Reader
/-! # Functions of the language

Each function can be called by name, `size(x)`, or on a receiver, `x.size()`,
which then is its first argument.
-/
namespace Placement

/-- A function of the language. -/
inductive Function
  | size | contains | startsWith | endsWith | fits | int | double | string
  deriving DecidableEq

namespace Function

/-- The name of the function in expressions. -/
def name : Function → String
  | .size => "size"
  | .contains => "contains"
  | .startsWith => "startsWith"
  | .endsWith => "endsWith"
  | .fits => "matches"
  | .int => "int"
  | .double => "double"
  | .string => "string"

/-- All functions. -/
def all : List Function :=
  [.size, .contains, .startsWith, .endsWith, .fits, .int, .double, .string]

/-- The function of a name. -/
def ofName? (name : String) : Option Function := all.find? fun f => f.name == name

/-- Whether the characters of `part` stand somewhere in `whole`, one after the other. -/
def occursIn (part : List Char) : List Char → Bool
  | [] => part.isEmpty
  | c :: rest => part.isPrefixOf (c :: rest) || occursIn part rest

/-- The whole number nearest to `n` that 64 bits hold. -/
def clamp (n : Int) : Int64 :=
  if n < -0x8000000000000000 then Int64.minValue
  else if 0x8000000000000000 ≤ n then Int64.maxValue
  else Int64.ofInt n

/-- Apply the function. -/
def apply (f : Function) (args : List Value) : Except Fault Value :=
  match f, args with
  | .size, [.string s] => .ok (.int (Int64.ofNat s.length))
  | .size, [.list items] => .ok (.int (Int64.ofNat items.length))
  | .size, [.map entries] => .ok (.int (Int64.ofNat entries.length))
  | .contains, [.string s, .string part] => .ok (.bool (occursIn part.toList s.toList))
  | .startsWith, [.string s, .string part] => .ok (.bool (part.toList.isPrefixOf s.toList))
  | .endsWith, [.string s, .string part] => .ok (.bool (part.toList.isSuffixOf s.toList))
  | .fits, [.string s, .string pattern] =>
      match Pattern.parse? pattern with
      | some p => .ok (.bool (p.matchesIn s))
      | none => .error .invalidPattern
  | .int, [.int n] => .ok (.int n)
  | .int, [.float x] =>
      match truncate? x with
      | some n => .ok (.int (clamp n))
      | none => .error (mismatch f.name args)
  | .int, [.string s] =>
      match (Numeral.readInt? s).bind Value.int64? with
      | some n => .ok (.int n)
      | none => .error (mismatch f.name args)
  | .double, [.int n] => .ok (.float (Float.ofInt n.toInt))
  | .double, [.float x] => .ok (.float x)
  | .double, [.string s] =>
      match Numeral.readFloat? s with
      | some x => .ok (.float x)
      | none => .error (mismatch f.name args)
  | .string, [.string s] => .ok (.string s)
  | .string, [.int n] => .ok (.string (toString n.toInt))
  | .string, [.float x] => .ok (.string (FloatStyle.value.render x))
  | .string, [.bool b] => .ok (.string (if b then "true" else "false"))
  | f, args => .error (mismatch f.name args)

end Function

/-- Call a function by name. -/
def callFunction (name : String) (args : List Value) : Except Fault Value :=
  match Function.ofName? name with
  | some f => f.apply args
  | none => .error (.unknownFunction name)

end Placement
