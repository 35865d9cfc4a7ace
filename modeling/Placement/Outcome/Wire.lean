import Placement.Outcome
/-! # Reports as JSON -/
namespace Placement

namespace NoMatchReason

/-- The name of the reason in documents. -/
def wireName : NoMatchReason → String
  | .expression => "EXPRESSION"
  | .occurrence => "OCCURRENCE"
  | .holdout => "HOLDOUT"

/-- The reason as a document. -/
def toJson (reason : NoMatchReason) : Json := .string reason.wireName

/-- The reason from a document. -/
def decode? (j : Json) : Option NoMatchReason := do
  let name ← j.name?
  [NoMatchReason.expression, .occurrence, .holdout].find? fun reason => reason.wireName == name

end NoMatchReason

namespace NoMatch

/-- A rule that did not match as a document. -/
def toJson (miss : NoMatch) : Json :=
  Json.ofFields [("source", miss.reason.toJson), ("experimentId", .string miss.experimentId)]

/-- A rule that did not match from a document. -/
def decode? (j : Json) : Option NoMatch := do
  let j ← j.record? ["source", "experimentId"]
  let reason ← j.required? NoMatchReason.decode? "source"
  let experimentId ← j.required? Json.string? "experimentId"
  some { reason, experimentId }

end NoMatch

namespace Fire

/-- A report as a document. -/
def toJson (fire : Fire) : Json :=
  Json.ofFields
    [("eventName", .string fire.eventName), ("experiment", fire.experiment.toJson),
     ("holdout", .bool fire.holdout), ("timestamp", .string fire.time.render)]

/-- A report from a document. -/
def decode? (j : Json) : Option Fire := do
  let j ← j.record? ["eventName", "experiment", "holdout", "timestamp"]
  let eventName ← j.required? Json.string? "eventName"
  let experiment ← j.required? Experiment.decode? "experiment"
  let holdout ← j.required? Json.bool? "holdout"
  let time ← j.required? (fun t => t.string?.bind ClockTime.parse?) "timestamp"
  some { eventName, experiment, holdout, time }

end Fire
end Placement
