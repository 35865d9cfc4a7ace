import Placement.Failure
import Placement.Rule
import Placement.Time.Clock
/-! # Outcomes

What an evaluation decides, and what is reported about it.
-/
namespace Placement

/-- Why a rule leads to no paywall. -/
inductive NoMatchReason
  /-- The condition does not hold, or cannot be evaluated. -/
  | expression
  /-- A limit on how often the rule may match. -/
  | occurrence
  /-- The user is assigned to a holdout. -/
  | holdout
  deriving DecidableEq

/-- A rule that did not match. -/
structure NoMatch where
  reason : NoMatchReason
  experimentId : ExperimentId
  deriving DecidableEq

/-- What an evaluation decides. -/
inductive Outcome
  /-- Show the paywall of the variant. -/
  | matched (rule : Rule) (variant : Variant)
  /-- Show nothing: no rule matched, the last one being named, or the variant is a
  holdout. -/
  | noMatch (miss : NoMatch)
  /-- There are no rules for the event. -/
  | eventNotFound (eventName : String)
  /-- Nothing could be decided. -/
  | failed (kind : FailureKind)

namespace Outcome

/-- The paywall to show. -/
def paywallId? : Outcome → Option String
  | .matched _ variant => variant.paywallId
  | _ => none

/-- The experiment that decided. -/
def experimentId? : Outcome → Option ExperimentId
  | .matched rule _ => some rule.experimentId
  | .noMatch miss => some miss.experimentId
  | _ => none

end Outcome

/-- The report that a user was assigned to a variant. -/
structure Fire where
  eventName : String
  experiment : Experiment
  /-- Whether the variant shows no paywall. -/
  holdout : Bool
  time : ClockTime

/-- The report about the variant of an experiment. -/
def Fire.ofExperiment (eventName : String) (experiment : Experiment) (t : Timestamp) : Fire :=
  ⟨eventName, experiment, experiment.variant.type == .holdout, .ofTimestamp t⟩

end Placement
