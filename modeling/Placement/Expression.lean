import Placement.Value
/-! # Expressions

A rule's condition is a tree: literals, names, list and map literals, member
access, calls and operators.  Source text and stored trees both end up here, so
evaluation looks at nothing else.

Two measures of a tree are given.  `Expression.height` follows the tree;
`Expression.depth` keeps a list of the nodes still to be visited, each with its
level, so it needs no deep recursion.  Only trees of depth at most `maxDepth` are
evaluated.
-/
namespace Placement

/-- Deepest tree that is evaluated. -/
def maxDepth : Nat := 100

/-- A literal. -/
inductive Literal
  | null
  | bool (b : Bool)
  | int (n : Int64)
  | float (x : Float)
  | string (s : String)
  deriving DecidableEq

/-- The value that a literal stands for. -/
def Literal.value : Literal → Value
  | .null => .null
  | .bool b => .bool b
  | .int n => .int n
  | .float x => .float x
  | .string s => .string s

/-- Operators in front of one operand. -/
inductive PrefixOp
  | not | negate
  deriving DecidableEq

/-- Operators on numbers; `add` also joins texts and lists. -/
inductive Arithmetic
  | add | subtract | multiply | divide | modulo
  deriving DecidableEq

/-- Operators that compare. -/
inductive Comparison
  | less | lessEqual | greater | greaterEqual | equal | notEqual | within
  deriving DecidableEq

/-- An expression. -/
inductive Expression
  | literal (value : Literal)
  | ident (name : String)
  | list (elements : List Expression)
  /-- Entries stay in source order. -/
  | map (entries : List (Expression × Expression))
  | member (target : Expression) (name : String)
  | index (target position : Expression)
  /-- A call of a function by its name alone. -/
  | call (function : String) (args : List Expression)
  /-- A call of a function on a receiver. -/
  | method (receiver : Expression) (function : String) (args : List Expression)
  | unary (op : PrefixOp) (operand : Expression)
  | arithmetic (op : Arithmetic) (left right : Expression)
  | relation (op : Comparison) (left right : Expression)
  | and (left right : Expression)
  | or (left right : Expression)
  | conditional (condition yes no : Expression)

namespace Expression

instance : Inhabited Expression := ⟨.literal .null⟩

mutual

/-- The literal tree of a value. -/
def ofValue : Value → Expression
  | .null => .literal .null
  | .bool b => .literal (.bool b)
  | .int n => .literal (.int n)
  | .float x => .literal (.float x)
  | .string s => .literal (.string s)
  | .list items => .list (ofItems items)
  | .map entries => .map (ofEntries entries)

def ofItems : List Value → List Expression
  | [] => []
  | v :: rest => ofValue v :: ofItems rest

def ofEntries : List (String × Value) → List (Expression × Expression)
  | [] => []
  | (key, v) :: rest => (.literal (.string key), ofValue v) :: ofEntries rest

end

/-! ## The nodes of a tree -/

/-- The kind of a node, by its name in stored trees. -/
def kind : Expression → String
  | .literal _ => "atom"
  | .ident _ => "ident"
  | .list _ => "list"
  | .map _ => "map"
  | .member _ _ => "member"
  | .index _ _ => "member"
  | .call _ _ => "functionCall"
  | .method _ _ _ => "functionCall"
  | .unary _ _ => "unary"
  | .arithmetic _ _ _ => "arithmetic"
  | .relation _ _ _ => "relation"
  | .and _ _ => "and"
  | .or _ _ => "or"
  | .conditional _ _ _ => "ternary"

/-- The direct children, in the order they are evaluated. -/
def children : Expression → List Expression
  | .literal _ | .ident _ => []
  | .list elements => elements
  | .map entries => entries.flatMap fun (key, value) => [key, value]
  | .member target _ => [target]
  | .index target position => [target, position]
  | .call _ args => args
  | .method receiver _ args => receiver :: args
  | .unary _ operand => [operand]
  | .arithmetic _ left right => [left, right]
  | .relation _ left right => [left, right]
  | .and left right => [left, right]
  | .or left right => [left, right]
  | .conditional condition yes no => [condition, yes, no]

mutual

/-- How many nodes a tree has. -/
def size : Expression → Nat
  | .literal _ | .ident _ => 1
  | .list elements => sizeList elements + 1
  | .map entries => sizeEntries entries + 1
  | .member target _ => target.size + 1
  | .index target position => target.size + position.size + 1
  | .call _ args => sizeList args + 1
  | .method receiver _ args => receiver.size + sizeList args + 1
  | .unary _ operand => operand.size + 1
  | .arithmetic _ left right => left.size + right.size + 1
  | .relation _ left right => left.size + right.size + 1
  | .and left right => left.size + right.size + 1
  | .or left right => left.size + right.size + 1
  | .conditional condition yes no => condition.size + yes.size + no.size + 1

def sizeList : List Expression → Nat
  | [] => 0
  | e :: rest => e.size + sizeList rest

def sizeEntries : List (Expression × Expression) → Nat
  | [] => 0
  | (key, value) :: rest => key.size + value.size + sizeEntries rest

end

mutual

/-- How many nodes the longest path from the root has: one more than the highest child. -/
def height : Expression → Nat
  | .literal _ | .ident _ => 1
  | .list elements => heightList elements + 1
  | .map entries => heightEntries entries + 1
  | .member target _ => target.height + 1
  | .index target position => max target.height position.height + 1
  | .call _ args => heightList args + 1
  | .method receiver _ args => max receiver.height (heightList args) + 1
  | .unary _ operand => operand.height + 1
  | .arithmetic _ left right => max left.height right.height + 1
  | .relation _ left right => max left.height right.height + 1
  | .and left right => max left.height right.height + 1
  | .or left right => max left.height right.height + 1
  | .conditional condition yes no => max condition.height (max yes.height no.height) + 1

/-- The height of the highest of some trees; `0` if there is none. -/
def heightList : List Expression → Nat
  | [] => 0
  | e :: rest => max e.height (heightList rest)

def heightEntries : List (Expression × Expression) → Nat
  | [] => 0
  | (key, value) :: rest => max (max key.height value.height) (heightEntries rest)

end

theorem sizeList_append (left right : List Expression) :
    sizeList (left ++ right) = sizeList left + sizeList right := by
  induction left with
  | nil => simp [sizeList]
  | cons e rest ih => simp [sizeList, ih, Nat.add_assoc]

theorem sizeEntries_eq_sizeList (entries : List (Expression × Expression)) :
    sizeEntries entries = sizeList (entries.flatMap fun (key, value) => [key, value]) := by
  induction entries with
  | nil => rfl
  | cons entry rest ih =>
      obtain ⟨key, value⟩ := entry
      simp [sizeEntries, sizeList, ih, Nat.add_assoc]

/-- A tree is one node and its children. -/
theorem size_eq_sizeList_children (e : Expression) : e.size = sizeList e.children + 1 := by
  cases e <;> simp [size, children, sizeList, sizeEntries_eq_sizeList, Nat.add_assoc]

/-! ## Depth without recursion -/

/-- The deepest level among `deepest` and the trees still to be visited, each with
the level of its root. -/
def depthFrom (deepest : Nat) (pending : List (Expression × Nat)) : Nat :=
  match pending with
  | [] => deepest
  | (e, level) :: rest =>
      depthFrom (max deepest level) (e.children.map (·, level + 1) ++ rest)
termination_by sizeList (pending.map fun p => p.1)
decreasing_by
  have : (fun p : Expression × Nat => p.1) ∘ (fun child => (child, level + 1)) = id := rfl
  simp only [List.map_append, List.map_map, List.map_cons, sizeList_append, sizeList, this,
    List.map_id, size_eq_sizeList_children e]
  omega

/-- How many nodes the longest path from the root has, found level by level. -/
def depth (e : Expression) : Nat := depthFrom 0 [(e, 1)]

end Expression
end Placement
