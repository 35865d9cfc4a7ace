import Placement.Expression.Source
import Placement.Experiment
import Placement.Json
import Placement.Property
/-! # Rules

A trigger lists rules for one event.  A rule ties a condition to an experiment
with its variants; a rule without condition always matches.  A rule that cannot
be read is kept as it came and left out of the active rules, so the others stay
usable.
-/
namespace Placement

/-- When the paywall of a rule may be loaded ahead. -/
inductive PreloadBehavior
  /-- If the condition holds. -/
  | ifTrue
  | always
  | never
  deriving DecidableEq

/-- How a rule is treated when paywalls are loaded ahead. -/
structure PreloadPolicy where
  behavior : PreloadBehavior
  /-- Whether the rule is evaluated again when the paywall is presented. -/
  requiresReEvaluation : Bool
  deriving DecidableEq

namespace PreloadPolicy

/-- What holds if a rule says nothing. -/
def default : PreloadPolicy := ⟨.ifTrue, false⟩

/-- Whether the paywall may be loaded ahead, given whether the condition holds. -/
def allows (policy : PreloadPolicy) (matched : Bool) : Bool :=
  match policy.behavior with
  | .always => true
  | .never => false
  | .ifTrue => matched

end PreloadPolicy

/-- A rule. -/
structure Rule where
  experimentId : ExperimentId
  experimentGroupId : ExperimentGroupId
  /-- The condition as source text; not together with `expressionTree`. -/
  expression : Option String
  /-- The condition as a tree; not together with `expression`. -/
  expressionTree : Option Expression
  variants : List VariantOption
  /-- Properties that are computed before the condition is evaluated. -/
  requests : List PropertyRequest
  preload : PreloadPolicy

namespace Rule

/-- A rule without condition. -/
def unconditional (experimentId : ExperimentId) (groupId : ExperimentGroupId)
    (variants : List VariantOption) : Rule :=
  { experimentId, experimentGroupId := groupId, expression := none, expressionTree := none,
    variants, requests := [], preload := .default }

/-- The same rule with a condition. -/
def onlyIf (rule : Rule) (source : String) : Rule := { rule with expression := some source }

/-- The same rule with one more property. -/
def withRequest (rule : Rule) (request : PropertyRequest) : Rule :=
  { rule with requests := rule.requests ++ [request] }

/-- What the names of events start with that record matches of rules. -/
def occurrencePrefix : String := "$occurrence:"

/-- The event that records a match of the rule. -/
def occurrenceEvent (rule : Rule) : String := occurrencePrefix ++ rule.experimentId

/-- **The condition of a rule as a tree**; nothing if the rule has none.  A tree that
is too deep is refused. -/
def condition (rule : Rule) : Except Fault (Option Expression) :=
  match rule.expression, rule.expressionTree with
  | none, none => .ok none
  | some _, some _ => .error .ambiguous
  | some source, none => (Expression.parse source).map some
  | none, some tree => if maxDepth < tree.depth then .error .tooDeep else .ok (some tree)

end Rule

/-- A rule of a configuration: read, or kept as it came. -/
inductive RuleEntry
  | parsed (rule : Rule)
  | failed (raw : Json)

/-- The rule of an entry, if it was read. -/
def RuleEntry.rule? : RuleEntry → Option Rule
  | .parsed rule => some rule
  | .failed _ => none

/-- The rules for one event, in the order they are tried. -/
structure Trigger where
  eventName : String
  rules : List RuleEntry

/-- A configuration. -/
structure Config where
  triggers : List Trigger

/-- The active rules by event, and the number of the configuration they come from. -/
structure RuleSet where
  generation : Nat
  triggers : Dict (List Rule)

namespace RuleSet

/-- No rules, before any configuration. -/
def empty : RuleSet := ⟨0, ∅⟩

/-- The rules of a configuration that could be read.  Of two triggers for one event
the later counts. -/
def ofConfig (config : Config) (generation : Nat) : RuleSet :=
  ⟨generation, Dict.ofList (config.triggers.map fun trigger =>
    (trigger.eventName, trigger.rules.filterMap RuleEntry.rule?))⟩

/-- The rules that come after `rules` when a configuration is activated. -/
def activate (rules : RuleSet) (config : Config) : RuleSet :=
  ofConfig config (rules.generation + 1)

/-- The rules for an event, in the order they are tried; nothing if it has no trigger. -/
def forEvent? (rules : RuleSet) (eventName : String) : Option (List Rule) :=
  rules.triggers.find? eventName

/-- All rules. -/
def all (rules : RuleSet) : List Rule := rules.triggers.values.flatten

/-- The variant of an experiment with a certain name. -/
def variant? (rules : RuleSet) (experimentId : ExperimentId) (variantId : VariantId) :
    Option VariantOption :=
  ((rules.all.filter fun rule => rule.experimentId == experimentId).flatMap
    Rule.variants).find? fun option => option.id == variantId

end RuleSet
end Placement
