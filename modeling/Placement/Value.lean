import Placement.Dict
/-! # Values

What attributes hold, what event parameters hold and what expressions evaluate
to.  The kinds are closed, so every mismatch an expression can run into is known
in advance.

Two equalities matter.  `Value.same` (written `==`) compares values of one kind,
doubles as numbers, so an undefined double equals nothing, not even itself.
`Value.alike`, the equality of the expression language, also compares whole
numbers with doubles; it lives with the operators.
-/
namespace Placement

/-- A value.  The entries of a map stand in ascending key order. -/
inductive Value
  | null
  | bool (b : Bool)
  | int (n : Int64)
  | float (x : Float)
  | string (s : String)
  | list (items : List Value)
  | map (entries : List (String × Value))

/-- Attributes by name: of the user, of the device, or parameters of an event. -/
abbrev Attributes := Dict Value

namespace Value

instance : Inhabited Value := ⟨.null⟩

/-- The whole number `n`, if 64 bits hold it. -/
def int64? (n : Int) : Option Int64 :=
  if -0x8000000000000000 ≤ n ∧ n < 0x8000000000000000 then some (Int64.ofInt n) else none

/-- The map of some attributes. -/
def ofAttributes (attributes : Attributes) : Value := .map attributes.entries

/-- The kind of a value, as messages name it. -/
def kind : Value → String
  | .null => "null"
  | .bool _ => "bool"
  | .int _ => "int"
  | .float _ => "double"
  | .string _ => "string"
  | .list _ => "list"
  | .map _ => "map"

/-- A truth value. -/
def bool? : Value → Option Bool
  | .bool b => some b
  | _ => none

/-- A text. -/
def string? : Value → Option String
  | .string s => some s
  | _ => none

/-- A whole number. -/
def int? : Value → Option Int64
  | .int n => some n
  | _ => none

/-- A number as a double; whole numbers are rounded to the nearest one. -/
def number? : Value → Option Float
  | .int n => some (Float.ofInt n.toInt)
  | .float x => some x
  | _ => none

/-- Whether the value is absent. -/
def isNull : Value → Bool
  | .null => true
  | _ => false

mutual

/-- Values of one kind with equal contents. -/
def same : Value → Value → Bool
  | .null, .null => true
  | .bool a, .bool b => a == b
  | .int a, .int b => a == b
  | .float a, .float b => a == b
  | .string a, .string b => a == b
  | .list a, .list b => sameItems a b
  | .map a, .map b => sameEntries a b
  | _, _ => false

/-- Lists of equal length with equal values in each place. -/
def sameItems : List Value → List Value → Bool
  | [], [] => true
  | a :: s, b :: t => same a b && sameItems s t
  | _, _ => false

/-- Maps with equal keys and equal values under each key. -/
def sameEntries : List (String × Value) → List (String × Value) → Bool
  | [], [] => true
  | (k, a) :: s, (l, b) :: t => k == l && same a b && sameEntries s t
  | _, _ => false

end

instance : BEq Value := ⟨same⟩

mutual

/-- The entries of every map inside the value, and of the value itself, stand in
ascending key order. -/
def Canonical : Value → Prop
  | .list items => CanonicalItems items
  | .map entries => Entries.Ascending entries ∧ CanonicalEntries entries
  | _ => True

def CanonicalItems : List Value → Prop
  | [] => True
  | v :: rest => Canonical v ∧ CanonicalItems rest

def CanonicalEntries : List (String × Value) → Prop
  | [] => True
  | (_, v) :: rest => Canonical v ∧ CanonicalEntries rest

end

end Value
end Placement
