import Placement.Experiment.Wire
import Placement.Expression.Wire
import Placement.Property.Wire
import Placement.Rule
/-! # Rules as JSON

Names of fields that are not known are ignored, and all fields are written, those
without a value as `null`.  Each record is also read from the array of its fields
(`Json.record?`); an array with more items than there are fields is refused.
-/
namespace Placement

namespace PreloadBehavior

/-- The name of the behavior in documents. -/
def wireName : PreloadBehavior → String
  | .ifTrue => "IF_TRUE"
  | .always => "ALWAYS"
  | .never => "NEVER"

/-- A behavior from a document. -/
def decode? (j : Json) : Option PreloadBehavior := do
  let name ← j.name?
  [PreloadBehavior.ifTrue, .always, .never].find? fun behavior => behavior.wireName == name

theorem decode?_wireName (behavior : PreloadBehavior) :
    decode? (.string behavior.wireName) = some behavior := by
  cases behavior <;> rfl

end PreloadBehavior

namespace PreloadPolicy

/-- A policy as a document. -/
def toJson (p : PreloadPolicy) : Json :=
  Json.ofFields
    [("behavior", .string p.behavior.wireName),
     ("requiresReEvaluation", .bool p.requiresReEvaluation)]

/-- A policy from a document. -/
def decode? (j : Json) : Option PreloadPolicy := do
  let j ← j.record? ["behavior", "requiresReEvaluation"]
  let behavior ← j.withDefault? PreloadBehavior.decode? PreloadPolicy.default.behavior "behavior"
  let requiresReEvaluation ←
    j.withDefault? Json.bool? PreloadPolicy.default.requiresReEvaluation "requiresReEvaluation"
  some { behavior, requiresReEvaluation }

theorem decode?_toJson (p : PreloadPolicy) : decode? p.toJson = some p := by
  simp [decode?, toJson, Json.withDefault?, Json.field?_ofFields,
    PreloadBehavior.decode?_wireName, Json.bool?]

end PreloadPolicy

namespace Rule

/-- A rule as a document. -/
def toJson (r : Rule) : Json :=
  Json.ofFields
    [("experimentId", .string r.experimentId),
     ("experimentGroupId", .string r.experimentGroupId),
     ("expression", Json.ofOption .string r.expression),
     ("expressionAst", Json.ofOption Expression.toJson r.expressionTree),
     ("variants", Json.ofList VariantOption.toJson r.variants),
     ("computedPropertyRequests", Json.ofList PropertyRequest.toJson r.requests),
     ("preload", r.preload.toJson)]

/-- The names of the fields, in the order they have in an array. -/
def fieldNames : List String :=
  ["experimentId", "experimentGroupId", "expression", "expressionAst", "variants",
   "computedPropertyRequests", "preload"]

/-- A rule from a document; `nested` tells that it is part of a configuration. -/
def decode? (nested : Bool) (j : Json) : Option Rule := do
  let j ← j.record? fieldNames
  let experimentId ← j.required? Json.string? "experimentId"
  let experimentGroupId ← j.required? Json.string? "experimentGroupId"
  let expression ← j.optional? Json.string? "expression"
  let expressionTree ← j.optional? (Expression.decode? nested) "expressionAst"
  let variants ← j.required? (Json.list? VariantOption.decode?) "variants"
  let requests ←
    j.withDefault? (Json.list? PropertyRequest.decode?) [] "computedPropertyRequests"
  let preload ← j.withDefault? PreloadPolicy.decode? PreloadPolicy.default "preload"
  some { experimentId, experimentGroupId, expression, expressionTree, variants, requests, preload }

end Rule

namespace RuleEntry

/-- A rule as a document; one that could not be read as it came. -/
def toJson : RuleEntry → Json
  | .parsed rule => rule.toJson
  | .failed raw => raw

/-- A rule from a document, kept as it came if it cannot be read. -/
def ofJson (j : Json) : RuleEntry :=
  match Rule.decode? true j with
  | some rule => .parsed rule
  | none => .failed j

end RuleEntry

namespace Trigger

/-- A trigger as a document. -/
def toJson (t : Trigger) : Json :=
  Json.ofFields
    [("eventName", .string t.eventName), ("rules", Json.ofList RuleEntry.toJson t.rules)]

/-- A trigger from a document. -/
def decode? (j : Json) : Option Trigger := do
  let j ← j.record? ["eventName", "rules"]
  let eventName ← j.required? Json.string? "eventName"
  let rules ← j.required? (Json.list? fun raw => some (RuleEntry.ofJson raw)) "rules"
  some { eventName, rules }

end Trigger

namespace Config

/-- A configuration as a document. -/
def toJson (c : Config) : Json :=
  Json.ofFields [("triggers", Json.ofList Trigger.toJson c.triggers)]

/-- A configuration from a document. -/
def decode? (j : Json) : Option Config := do
  let j ← j.record? ["triggers"]
  let triggers ← j.required? (Json.list? Trigger.decode?) "triggers"
  some { triggers }

end Config
end Placement
