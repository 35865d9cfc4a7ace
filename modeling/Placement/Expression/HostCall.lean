import Placement.Expression.Evaluation
import Placement.Expression.Traversal
/-! # Host calls

Calls such as `platform.daysSince("signup")` are answered by the host, from the
history of events, and not by the language.  They are resolved in two phases:
`Expression.hostCalls` finds them and evaluates their arguments, equal calls
once; once they are answered, `Expression.substitute` puts the literal of its
answer in the place of each call.  What is left is an expression without host
calls.
-/
namespace Placement

/-- A host call with the values of its arguments. -/
structure HostCall where
  name : String
  args : List Value

namespace HostCall

/-- Calls with one name and equal arguments. -/
def same (a b : HostCall) : Bool := a.name == b.name && Value.sameItems a.args b.args

instance : BEq HostCall := ⟨same⟩

/-- The names under which every call is a host call. -/
def callNamespaces : List String := ["platform", "computed", "device"]

/-- The names under which a member is a host call without arguments. -/
def memberNamespaces : List String := ["platform", "computed"]

/-- The name and the arguments of a node that is a host call. -/
def ofNode? : Expression → Option (String × List Expression)
  | .method (.ident receiver) function args =>
      if callNamespaces.contains receiver then some (function, args) else none
  | .member (.ident receiver) name =>
      if memberNamespaces.contains receiver then some (name, []) else none
  | _ => none

/-- Whether a host call stands anywhere in a tree. -/
def occursIn (e : Expression) : Bool := e.nodes.any fun node => (ofNode? node).isSome

/-- The values of the arguments of a host call, which must not hold host calls. -/
def evalArgs (ctx : Context) (name : String) : List Expression → Except Fault (List Value)
  | [] => .ok []
  | arg :: rest =>
      if occursIn arg then .error (.nestedHostCall name)
      else do
        let v ← arg.eval ctx
        let vs ← evalArgs ctx name rest
        .ok (v :: vs)

/-- A host call with its arguments evaluated. -/
def evaluate (ctx : Context) (name : String) (args : List Expression) : Except Fault HostCall := do
  let values ← evalArgs ctx name args
  .ok ⟨name, values⟩

/-- Evaluate found calls one after the other, adding each that equals none before. -/
def collect (ctx : Context) :
    List (String × List Expression) → List HostCall → Except Fault (List HostCall)
  | [], calls => .ok calls
  | (name, args) :: rest, calls => do
      let call ← evaluate ctx name args
      let known := calls.any fun earlier => earlier.same call
      collect ctx rest (if known then calls else calls ++ [call])

/-- The answer to a call among some that are resolved; `false` if it is not there. -/
def answer (resolved : List (HostCall × Value)) (call : HostCall) : Value :=
  match resolved.find? fun entry => entry.1.same call with
  | some (_, v) => v
  | none => .bool false

/-- Ask the host for the answers to some calls, one after the other. -/
def resolve {m : Type → Type} [Monad m] (host : HostCall → m Value) :
    List HostCall → m (List (HostCall × Value))
  | [] => pure []
  | call :: rest => do
      let v ← host call
      let resolved ← resolve host rest
      pure ((call, v) :: resolved)

end HostCall

namespace Expression

/-- **The host calls of an expression**, children before their parents, equal ones
once. -/
def hostCalls (ctx : Context) (e : Expression) : Except Fault (List HostCall) :=
  HostCall.collect ctx (e.nodes.filterMap HostCall.ofNode?) []

/-- The literal that stands for a host call; other nodes stay. -/
def substituteNode (ctx : Context) (resolved : List (HostCall × Value)) (node : Expression) :
    Except Fault Expression :=
  match HostCall.ofNode? node with
  | none => .ok node
  | some (name, args) => do
      let call ← HostCall.evaluate ctx name args
      .ok (ofValue (HostCall.answer resolved call))

/-- **Put the literal of its answer in the place of every host call.** -/
def substitute (ctx : Context) (resolved : List (HostCall × Value)) (e : Expression) :
    Except Fault Expression :=
  e.rebuild (substituteNode ctx resolved)

/-- **The truth value of an expression with host calls.**  Every distinct call is
answered once; if one cannot be evaluated, none is asked for. -/
def evaluate {m : Type → Type} [Monad m] (ctx : Context) (host : HostCall → m Value)
    (e : Expression) : m (Except Fault Bool) :=
  match e.hostCalls ctx with
  | .error fault => pure (.error fault)
  | .ok [] => pure (e.evalBool ctx)
  | .ok calls => do
      let resolved ← HostCall.resolve host calls
      pure <|
        match e.substitute ctx resolved with
        | .error fault => .error fault
        | .ok e => e.evalBool ctx

end Expression
end Placement
