import Placement.Crash
import Placement.Expression.HostCall
import Placement.History
import Placement.Property
/-! # Resolving computed properties

A resolver answers computed properties from the history of events, as of a fixed
time.  **Each property is asked of the history once**; later requests get the same
answer, whatever has been appended since.  If the history fails, the answer is `0`.
-/
namespace Placement

/-- The properties that are resolved, with their answers. -/
abbrev Resolved : Type := List (PropertyRequest × Value)

/-- Answers computed properties as of a fixed time. -/
structure Resolver where
  history : History
  now : Timestamp
  resolved : Resolved

namespace Resolver

/-- A resolver that has answered nothing. -/
def new (history : History) (now : Timestamp) : Resolver := ⟨history, now, []⟩

/-- Ask the history, with `0` for an answer that it does not give. -/
def asked (question : Attempt History HistoryFault Int) : Attempt Resolver Crash Int := do
  let answer ← (question.on Resolver.history fun history r => { r with history }).caught
  return answer.toOption.getD 0

/-- A count as an answer; one that 64 bits cannot hold becomes the largest answer. -/
def ofCount (count : Nat) : Int := min count 0x7FFFFFFFFFFFFFFF

/-- Ask the history what a property asks. -/
def consult (request : PropertyRequest) : Attempt Resolver Crash Int := do
  let now := (← get).now
  match request.property.question with
  | .since measure =>
      asked do
        let last ← History.mostRecent request.eventName
        return (last.map (measure now)).getD 0
  | .within window =>
      match now.minus? window with
      | none => throw .unrepresentableTime
      | some start => asked do return ofCount (← History.count request.eventName start now)
  | .ever => asked do return ofCount (← History.count request.eventName Timestamp.first now)

/-- The answer to a request if it is resolved. -/
def known? (r : Resolver) (request : PropertyRequest) : Option Value :=
  r.resolved.lookup request

/-- The value of a computed property. -/
def answer (request : PropertyRequest) : Attempt Resolver Crash Value := do
  match (← get).known? request with
  | some answer => return answer
  | none =>
      let answer := Value.int (Int64.ofInt (← consult request))
      modify fun r => { r with resolved := (request, answer) :: r.resolved }
      return answer

/-- The property that a host call asks for: one with a known name and a text as its
only argument. -/
def requested? (call : HostCall) : Option PropertyRequest :=
  match Property.ofFunctionName? call.name, call.args with
  | some property, [.string eventName] => some ⟨property, eventName⟩
  | _, _ => none

/-- The answer to a host call; `false` for calls that ask for no property. -/
def answerCall (call : HostCall) : Attempt Resolver Crash Value :=
  match requested? call with
  | some request => answer request
  | none => return .bool false

/-- The device attributes that show the answers to some requests. -/
def attributes (requests : List PropertyRequest) : Attempt Resolver Crash Attributes :=
  requests.foldlM (fun attributes request => do
    return attributes.insert request.attributeName (← answer request)) ∅

end Resolver
end Placement
