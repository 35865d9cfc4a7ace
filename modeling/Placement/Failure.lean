import Placement.Experiment
import Placement.Store
/-! # Failures of requests

What goes wrong with a single rule never shows up here: such a rule does not match.
A failure means that a request could not be decided, or would have broken the
stickiness of assignments.
-/
namespace Placement

/-- Why a request failed. -/
inductive Failure
  | persistence (fault : PersistenceFault)
  | assignment (fault : AssignmentFault)
  /-- Another variant is already confirmed for the experiment. -/
  | conflict (experimentId : ExperimentId) (existing attempted : VariantId)
  /-- The worker does not run. -/
  | workerUnavailable
  /-- The worker crashed. -/
  | workerCrashed
  deriving DecidableEq

/-- What kind of failure a request had. -/
inductive FailureKind
  | persistence
  | noVariants
  | concurrencyInvariantViolation
  | workerUnavailable
  deriving DecidableEq

namespace FailureKind

/-- The name of the kind in documents. -/
def wireName : FailureKind → String
  | .persistence => "PERSISTENCE"
  | .noVariants => "NO_VARIANTS"
  | .concurrencyInvariantViolation => "CONCURRENCY_INVARIANT_VIOLATION"
  | .workerUnavailable => "WORKER_UNAVAILABLE"

/-- The kind as a document. -/
def toJson (kind : FailureKind) : Json := .string kind.wireName

/-- The kind from a document. -/
def decode? (j : Json) : Option FailureKind := do
  let name ← j.name?
  [FailureKind.persistence, .noVariants, .concurrencyInvariantViolation,
    .workerUnavailable].find? fun kind => kind.wireName == name

end FailureKind

namespace Failure

/-- The kind of a failure. -/
def kind : Failure → FailureKind
  | .persistence _ => .persistence
  | .assignment _ => .noVariants
  | .conflict _ _ _ => .concurrencyInvariantViolation
  | .workerUnavailable => .workerUnavailable
  | .workerCrashed => .workerUnavailable

/-- The text of a failure. -/
def message : Failure → String
  | .persistence fault => fault.message
  | .assignment fault => fault.message
  | .conflict experimentId existing attempted =>
      "conflicting confirmation for experiment " ++ experimentId ++ ": " ++ existing
        ++ " is already confirmed, got " ++ attempted
  | .workerUnavailable => "orchestrator worker is not running"
  | .workerCrashed => "orchestrator worker thread panicked"

end Failure
end Placement
