import Placement.Expression
import Placement.Value.Wire
/-! # Stored trees

Servers may deliver a condition as a tree.  Every node is an object whose `type`
names its kind; fields that are not known are ignored.  A node may also come as an
array of the name and the fields of its kind.  Doubles that are not finite cannot be
stored and are written as `null`.
-/
namespace Placement

namespace PrefixOp

/-- The name of the operator in stored trees. -/
def wireName : PrefixOp → String
  | .not => "Not"
  | .negate => "Negate"

/-- The operator of a name. -/
def ofWireName? (name : String) : Option PrefixOp :=
  [PrefixOp.not, .negate].find? fun op => op.wireName == name

theorem ofWireName?_wireName (op : PrefixOp) : ofWireName? op.wireName = some op := by
  cases op <;> rfl

end PrefixOp

namespace Arithmetic

/-- The name of the operator in stored trees. -/
def wireName : Arithmetic → String
  | .add => "Add"
  | .subtract => "Subtract"
  | .multiply => "Multiply"
  | .divide => "Divide"
  | .modulo => "Modulo"

/-- The operator of a name. -/
def ofWireName? (name : String) : Option Arithmetic :=
  [Arithmetic.add, .subtract, .multiply, .divide, .modulo].find? fun op => op.wireName == name

theorem ofWireName?_wireName (op : Arithmetic) : ofWireName? op.wireName = some op := by
  cases op <;> rfl

end Arithmetic

namespace Comparison

/-- The name of the operator in stored trees. -/
def wireName : Comparison → String
  | .less => "LessThan"
  | .lessEqual => "LessThanOrEqual"
  | .greater => "GreaterThan"
  | .greaterEqual => "GreaterThanOrEqual"
  | .equal => "Equals"
  | .notEqual => "NotEquals"
  | .within => "In"

/-- The operator of a name. -/
def ofWireName? (name : String) : Option Comparison :=
  [Comparison.less, .lessEqual, .greater, .greaterEqual, .equal, .notEqual, .within].find?
    fun op => op.wireName == name

theorem ofWireName?_wireName (op : Comparison) : ofWireName? op.wireName = some op := by
  cases op <;> rfl

end Comparison

/-- A name out of a fixed list as trees hold it: the field of that name may also hold
an empty object. -/
def nodeName? : Json → Option String
  | .object [(name, .object [])] => some name
  | j => j.name?

namespace Literal

/-- A literal as a document. -/
def toJson : Literal → Json
  | .null => Json.ofFields [("type", .string "Null")]
  | .bool b => Json.ofFields [("type", .string "Bool"), ("value", .bool b)]
  | .int n => Json.ofFields [("type", .string "Int"), ("value", .int n.toInt)]
  | .float x => Json.ofFields [("type", .string "Float"), ("value", Json.ofFloat x)]
  | .string s => Json.ofFields [("type", .string "String"), ("value", .string s)]

/-- The object with the type and the value of a literal.  An array has to have both, also where
the value is nothing. -/
def tagged? : Json → Option Json
  | .array [] | .array [_] => none
  | j => j.record? ["type", "value"]

@[simp] theorem tagged?_ofFields (fields : List (String × Json)) :
    tagged? (Json.ofFields fields) = some (Json.ofFields fields) := rfl

/-- A literal from a document.  A whole number is accepted where a double is stored. -/
def decode? (j : Json) : Option Literal := do
  let j ← tagged? j
  let type ← nodeName? (← j.field? "type")
  match type, j.field? "value" with
  | "Null", none => some .null
  | "Null", some .null => some .null
  | "Bool", some (.bool b) => some (.bool b)
  | "Int", some (.int n) => (Value.int64? n).map .int
  | "Float", some (.int n) => some (.float (Float.ofInt n))
  | "Float", some (.float x) => some (.float x.val)
  | "String", some (.string s) => some (.string s)
  | _, _ => none

end Literal

namespace Expression

/-! ## Writing -/

mutual

/-- A tree as a document. -/
def toJson : Expression → Json
  | .literal value => Json.ofFields [("type", .string "atom"), ("value", value.toJson)]
  | .ident name => Json.ofFields [("type", .string "ident"), ("name", .string name)]
  | .list elements =>
      Json.ofFields [("type", .string "list"), ("elements", .array (toJsonItems elements))]
  | .map entries =>
      Json.ofFields [("type", .string "map"), ("entries", .array (toJsonEntries entries))]
  | .member target name =>
      Json.ofFields
        [("type", .string "member"), ("expr", target.toJson),
         ("member", Json.ofFields [("type", .string "Attribute"), ("value", .string name)])]
  | .index target position =>
      Json.ofFields
        [("type", .string "member"), ("expr", target.toJson),
         ("member", Json.ofFields [("type", .string "Index"), ("value", position.toJson)])]
  | .call function args =>
      Json.ofFields
        [("type", .string "functionCall"), ("function", .string function), ("receiver", .null),
         ("args", .array (toJsonItems args))]
  | .method receiver function args =>
      Json.ofFields
        [("type", .string "functionCall"), ("function", .string function),
         ("receiver", receiver.toJson), ("args", .array (toJsonItems args))]
  | .unary op operand =>
      Json.ofFields
        [("type", .string "unary"), ("op", .string op.wireName), ("expr", operand.toJson)]
  | .arithmetic op left right =>
      Json.ofFields
        [("type", .string "arithmetic"), ("op", .string op.wireName), ("left", left.toJson),
         ("right", right.toJson)]
  | .relation op left right =>
      Json.ofFields
        [("type", .string "relation"), ("op", .string op.wireName), ("left", left.toJson),
         ("right", right.toJson)]
  | .and left right =>
      Json.ofFields
        [("type", .string "and"), ("left", left.toJson), ("right", right.toJson)]
  | .or left right =>
      Json.ofFields [("type", .string "or"), ("left", left.toJson), ("right", right.toJson)]
  | .conditional condition yes no =>
      Json.ofFields
        [("type", .string "ternary"), ("condition", condition.toJson), ("then", yes.toJson),
         ("otherwise", no.toJson)]

def toJsonItems : List Expression → List Json
  | [] => []
  | e :: rest => e.toJson :: toJsonItems rest

def toJsonEntries : List (Expression × Expression) → List Json
  | [] => []
  | (key, value) :: rest => .array [key.toJson, value.toJson] :: toJsonEntries rest

end

/-! ## Reading -/

/-- The kinds of nodes, by name. -/
def kinds : List String :=
  ["atom", "ident", "list", "map", "member", "functionCall", "unary", "arithmetic", "relation",
   "and", "or", "ternary"]

/-- The fields of the nodes of a kind, in the order they have in an array. -/
def fieldNames : String → List String
  | "atom" => ["type", "value"]
  | "ident" => ["type", "name"]
  | "list" => ["type", "elements"]
  | "map" => ["type", "entries"]
  | "member" => ["type", "expr", "member"]
  | "functionCall" => ["type", "function", "receiver", "args"]
  | "unary" => ["type", "op", "expr"]
  | "arithmetic" | "relation" => ["type", "op", "left", "right"]
  | "and" | "or" => ["type", "left", "right"]
  | "ternary" => ["type", "condition", "then", "otherwise"]
  | _ => ["type"]

/-- What tells the kind of a node: its `type`, or the first item of an array. -/
def tag? : Json → Option Json
  | .array items => items.head?
  | j => j.field? "type"

/-- The kind of a node.  Inside a tree it may also be given by its place among the kinds. -/
def kind? (nested : Bool) : Json → Option String
  | .string s => some s
  | .int n => if nested ∧ 0 ≤ n then kinds[n.toNat]? else none
  | _ => none

/-- The field of a node of some kind. -/
def nodePart? (kind : String) (j : Json) (name : String) :
    Option { x : Json // sizeOf x < sizeOf j } :=
  j.part? (fieldNames kind) name

mutual

/-- A tree from a document; `nested` tells that it is part of a larger one. -/
def decode? (nested : Bool) (j : Json) : Option Expression := do
  let kind ← kind? nested (← tag? j)
  match kind with
  | "atom" => do
      let ⟨value, _⟩ ← nodePart? kind j "value"
      return .literal (← Literal.decode? value)
  | "ident" => do
      let ⟨name, _⟩ ← nodePart? kind j "name"
      return .ident (← name.string?)
  | "list" => do
      let ⟨elements, _⟩ ← nodePart? kind j "elements"
      return .list (← decodeArray? elements)
  | "map" => do
      let ⟨entries, _⟩ ← nodePart? kind j "entries"
      return .map (← decodeEntries? entries)
  | "member" => do
      let ⟨target, _⟩ ← nodePart? kind j "expr"
      let target ← decode? true target
      let ⟨step, _⟩ ← nodePart? kind j "member"
      let ⟨type, _⟩ ← step.part? ["type", "value"] "type"
      let ⟨value, _⟩ ← step.part? ["type", "value"] "value"
      match ← nodeName? type with
      | "Attribute" => return .member target (← value.string?)
      | "Index" => return .index target (← decode? true value)
      | _ => none
  | "functionCall" => do
      let ⟨function, _⟩ ← nodePart? kind j "function"
      let function ← function.string?
      let args ← match nodePart? kind j "args" with
        | none => some []
        | some ⟨args, _⟩ => decodeArray? args
      match nodePart? kind j "receiver" with
      | none => return .call function args
      | some ⟨.null, _⟩ => return .call function args
      | some ⟨receiver, _⟩ => return .method (← decode? true receiver) function args
  | "unary" => do
      let ⟨op, _⟩ ← nodePart? kind j "op"
      let op ← PrefixOp.ofWireName? (← nodeName? op)
      let ⟨operand, _⟩ ← nodePart? kind j "expr"
      return .unary op (← decode? true operand)
  | "arithmetic" => do
      let ⟨op, _⟩ ← nodePart? kind j "op"
      let op ← Arithmetic.ofWireName? (← nodeName? op)
      let ⟨left, _⟩ ← nodePart? kind j "left"
      let ⟨right, _⟩ ← nodePart? kind j "right"
      return .arithmetic op (← decode? true left) (← decode? true right)
  | "relation" => do
      let ⟨op, _⟩ ← nodePart? kind j "op"
      let op ← Comparison.ofWireName? (← nodeName? op)
      let ⟨left, _⟩ ← nodePart? kind j "left"
      let ⟨right, _⟩ ← nodePart? kind j "right"
      return .relation op (← decode? true left) (← decode? true right)
  | "and" => do
      let ⟨left, _⟩ ← nodePart? kind j "left"
      let ⟨right, _⟩ ← nodePart? kind j "right"
      return .and (← decode? true left) (← decode? true right)
  | "or" => do
      let ⟨left, _⟩ ← nodePart? kind j "left"
      let ⟨right, _⟩ ← nodePart? kind j "right"
      return .or (← decode? true left) (← decode? true right)
  | "ternary" => do
      let ⟨condition, _⟩ ← nodePart? kind j "condition"
      let ⟨yes, _⟩ ← nodePart? kind j "then"
      let ⟨no, _⟩ ← nodePart? kind j "otherwise"
      return .conditional (← decode? true condition) (← decode? true yes) (← decode? true no)
  | _ => none
termination_by sizeOf j

/-- The trees of an array. -/
def decodeArray? (j : Json) : Option (List Expression) :=
  match j with
  | .array items => decodeItems? items
  | _ => none
termination_by sizeOf j

def decodeItems? (items : List Json) : Option (List Expression) :=
  match items with
  | [] => some []
  | item :: rest => do
      let e ← decode? true item
      return e :: (← decodeItems? rest)
termination_by sizeOf items

/-- The pairs of an array of pairs. -/
def decodeEntries? (j : Json) : Option (List (Expression × Expression)) :=
  match j with
  | .array items => decodePairs? items
  | _ => none
termination_by sizeOf j

def decodePairs? (items : List Json) : Option (List (Expression × Expression)) :=
  match items with
  | [] => some []
  | .array [key, value] :: rest => do
      let key ← decode? true key
      let value ← decode? true value
      return (key, value) :: (← decodePairs? rest)
  | _ => none
termination_by sizeOf items

end

end Expression
end Placement
