import Placement.Engine.Identity
import Placement.Engine.Preload
/-! # Commands

What the engine can be asked to do besides committed evaluations, with its replies.
A command carries the rules that were active when it was given.
-/
namespace Placement

/-- What the engine is asked to do. -/
inductive Command
  /-- Evaluate an event without changing anything. -/
  | preview (event : Event) (rules : RuleSet)
  /-- Forget the user. -/
  | reset
  /-- Work for the user with a certain name. -/
  | identify (userId : String)
  /-- Change attributes of the user. -/
  | setAttributes (changes : Attributes)
  /-- Take over assignments that the server decided. -/
  | restore (server : List ServerAssignment) (rules : RuleSet)
  /-- Tell which paywalls may be loaded ahead at a certain time. -/
  | preload (rules : RuleSet) (now : Timestamp)

/-- What the engine replies. -/
inductive Reply
  | outcome (outcome : Outcome)
  | done
  /-- How many assignments were taken over. -/
  | restored (count : Nat)
  | paywalls (ids : List String)
  | failed (failure : Failure)

/-- The reply to a step that may fail. -/
def Reply.ofStep {α : Type} (step : Attempt Engine PersistenceFault α) (reply : α → Reply) :
    Attempt Engine Crash Reply := do
  match ← step.caught with
  | .ok x => return reply x
  | .error fault => return .failed (.persistence fault)

/-- Do what a command asks for. -/
def Command.run : Command → Attempt Engine Crash Reply
  | .preview event rules => return .outcome (← Engine.evaluate event rules .preview)
  | .reset => Reply.ofStep Engine.reset fun () => .done
  | .identify userId => Reply.ofStep (Engine.identify userId) fun () => .done
  | .setAttributes changes => Reply.ofStep (Engine.setAttributes changes) fun () => .done
  | .restore server rules => Reply.ofStep (Engine.restore server rules) Reply.restored
  | .preload rules now => do
      match ← Engine.preload rules now with
      | .ok ids => return .paywalls ids
      | .error fault => return .failed (.persistence fault)

/-- The reply to a command that is never done, because the worker does not run. -/
def Command.unavailable : Command → Reply
  | .preview _ _ => .outcome (.failed Failure.workerUnavailable.kind)
  | _ => .failed .workerUnavailable

end Placement
