import Placement.Expression.Functions
/-! # Evaluating expressions

The value of a tree in a context, without side effects.  `&&` and `||` absorb
faults: **a false operand of `&&` decides it whatever the other one does**, and
likewise a true operand of `||`.  So a guard protects the other side wherever it
stands.
-/
namespace Placement

/-- The variables an expression sees, under the names `user`, `device` and `params`. -/
structure Context where
  user : Value
  device : Value
  params : Value

namespace Context

/-- A context in which all three names hold nothing. -/
def empty : Context := ⟨.null, .null, .null⟩

/-- The context of some attributes. -/
def ofAttributes (user device params : Attributes) : Context :=
  ⟨.ofAttributes user, .ofAttributes device, .ofAttributes params⟩

/-- The value under a top-level name. -/
def namespace? (ctx : Context) (name : String) : Option Value :=
  if name = "user" then some ctx.user
  else if name = "device" then some ctx.device
  else if name = "params" then some ctx.params
  else none

end Context

/-- The truth value of a result that has to be one. -/
def truth : Except Fault Value → Except Fault Bool
  | .ok (.bool b) => .ok b
  | .ok v => .error (.notBoolean v.kind)
  | .error fault => .error fault

/-- Both operands hold.  A false one decides, also next to a fault; of two faults
the left one stays. -/
def conjunction (left right : Except Fault Bool) : Except Fault Bool :=
  match left with
  | .ok false => .ok false
  | .ok true => right
  | .error fault =>
      match right with
      | .ok false => .ok false
      | _ => .error fault

/-- One of the operands holds.  A true one decides, also next to a fault; of two
faults the left one stays. -/
def disjunction (left right : Except Fault Bool) : Except Fault Bool :=
  match left with
  | .ok true => .ok true
  | .ok false => right
  | .error fault =>
      match right with
      | .ok true => .ok true
      | _ => .error fault

namespace Value

/-- The entry of a map under a key. -/
def entry (target : Value) (key : String) : Except Fault Value :=
  match target with
  | .map entries =>
      match Entries.find? key entries with
      | some v => .ok v
      | none => .error (.noSuchKey key)
  | other => .error (mismatch "_._" [other])

/-- The entry of a map under a text, or the element of a list at a place. -/
def element (target position : Value) : Except Fault Value :=
  match target, position with
  | .map entries, .string key => entry (.map entries) key
  | .list items, .int n =>
      let place := n.toInt
      match (if 0 ≤ place then items[place.toNat]? else none) with
      | some v => .ok v
      | none => .error (.noSuchKey (toString place))
  | target, position => .error (mismatch "_[_]" [target, position])

/-- Whether a map has an entry under a key. -/
def hasAttribute (target : Value) (key : String) : Except Fault Value :=
  match target with
  | .map entries => .ok (.bool (Entries.find? key entries).isSome)
  | other => .error (mismatch "has" [other])

/-- The text that a key of a map has to be. -/
def asKey : Value → Except Fault String
  | .string key => .ok key
  | other => .error (mismatch "\x7b:\x7d" [other])

end Value

namespace Expression

mutual

/-- **The value of an expression.**  Parts are evaluated from left to right and the
first fault ends it, but for the operators that absorb faults.  The argument of
`has` is looked at, not evaluated. -/
def eval (ctx : Context) : Expression → Except Fault Value
  | .literal value => .ok value.value
  | .ident name =>
      match ctx.namespace? name with
      | some v => .ok v
      | none => .error (.unknownIdentifier name)
  | .list elements => do
      let items ← evalList ctx elements
      .ok (.list items)
  | .map entries => do
      let entries ← evalEntries ctx entries []
      .ok (.map entries)
  | .member target name => do
      let target ← eval ctx target
      target.entry name
  | .index target position => do
      let target ← eval ctx target
      let position ← eval ctx position
      target.element position
  | .call function args =>
      if function = "has" then
        match args with
        | [.member target name] => do
            let target ← eval ctx target
            target.hasAttribute name
        | _ => .error (.noSuchOverload "has" ["expr"])
      else do
        let args ← evalList ctx args
        callFunction function args
  | .method receiver function args => do
      let receiver ← eval ctx receiver
      let args ← evalList ctx args
      callFunction function (receiver :: args)
  | .unary op operand => do
      let v ← eval ctx operand
      op.apply v
  | .arithmetic op left right => do
      let left ← eval ctx left
      let right ← eval ctx right
      op.apply left right
  | .relation op left right => do
      let left ← eval ctx left
      let right ← eval ctx right
      let b ← op.apply left right
      .ok (.bool b)
  | .and left right =>
      (conjunction (truth (eval ctx left)) (truth (eval ctx right))).map .bool
  | .or left right =>
      (disjunction (truth (eval ctx left)) (truth (eval ctx right))).map .bool
  | .conditional condition yes no => do
      match ← eval ctx condition with
      | .bool true => eval ctx yes
      | .bool false => eval ctx no
      | other => .error (mismatch "_?_:_" [other])

/-- The values of some expressions. -/
def evalList (ctx : Context) : List Expression → Except Fault (List Value)
  | [] => .ok []
  | e :: rest => do
      let v ← eval ctx e
      let vs ← evalList ctx rest
      .ok (v :: vs)

/-- The entries of a map literal, stored one by one among those already stored. -/
def evalEntries (ctx : Context) :
    List (Expression × Expression) → List (String × Value) → Except Fault (List (String × Value))
  | [], stored => .ok stored
  | (key, value) :: rest, stored => do
      let key ← eval ctx key
      let key ← key.asKey
      let v ← eval ctx value
      evalEntries ctx rest (Entries.put key v stored)

end

/-- The truth value of an expression; any other value is a fault. -/
def evalBool (ctx : Context) (e : Expression) : Except Fault Bool := truth (eval ctx e)

end Expression
end Placement
