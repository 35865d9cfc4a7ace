import Placement.Expression.HostCall
import Placement.History
import Placement.Outcome
/-! # Matching rules

A rule matches if its condition holds; a rule without condition always does.  A
committed match is recorded in the history.
-/
namespace Placement

/-- Whether an evaluation may change anything. -/
inductive Intent
  /-- Record the event and the match, confirm the assignment, and report it. -/
  | commit
  /-- Only look. -/
  | preview
  deriving DecidableEq

namespace Rule

/-- Whether the condition of a rule holds. -/
def evaluate {m : Type → Type} [Monad m] (rule : Rule) (ctx : Context) (host : HostCall → m Value) :
    m (Except Fault Bool) :=
  match rule.condition with
  | .error fault => pure (.error fault)
  | .ok none => pure (.ok true)
  | .ok (some condition) => condition.evaluate ctx host

/-- Record a match.  A history that fails does not undo it. -/
def recordMatch {ε : Type} (rule : Rule) (t : Timestamp) : Attempt History ε Unit := do
  let _ ← (History.append rule.occurrenceEvent t).caught
  return ()

/-- **Whether a rule matches**, given whether its condition holds. -/
def judge {ε : Type} (rule : Rule) (holds : Bool) (intent : Intent) (t : Timestamp) :
    Attempt History ε (Except NoMatch Rule) := do
  if holds then
    if intent = .commit then rule.recordMatch t
    return .ok rule
  else return .error ⟨.expression, rule.experimentId⟩

end Rule
end Placement
