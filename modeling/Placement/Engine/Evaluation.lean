import Placement.Engine
import Placement.Property.Resolver
import Placement.Rule.Evaluation
/-! # Evaluating events

The rules for an event are tried in their order, and **the first one whose condition
holds decides**.  A condition that cannot be evaluated does not hold.  The user is
then assigned to a variant of the rule's experiment.

In `Intent.commit` the event, the match and the assignment are recorded and
the assignment is reported; in `Intent.preview` nothing is, except that a
seed is drawn if there is none.
-/
namespace Placement.Engine
variable {α : Type}

/-- A step with a resolver that starts with some answers; the answers it ends with come
along. -/
def resolving (now : Timestamp) (resolved : Resolved) (step : Attempt Resolver Crash α) :
    Attempt Engine Crash (α × Resolved) := fun engine =>
  match step ⟨engine.history, now, resolved⟩ with
  | (.ok x, r) => (.ok (x, r.resolved), { engine with history := r.history })
  | (.error crash, r) => (.error crash, { engine with history := r.history })

/-- Whether the condition of a rule holds, with the requested properties among the device
attributes. -/
def conditionIn (rule : Rule) (user device parameters : Attributes) :
    Attempt Resolver Crash Bool := do
  let computed ← Resolver.attributes rule.requests
  let ctx := Context.ofAttributes user (device.union computed) parameters
  match ← rule.evaluate ctx Resolver.answerCall with
  | .ok holds => return holds
  | .error _ => return false

/-- Whether the condition of a rule holds.  The device is asked once. -/
def conditionHolds (rule : Rule) (user parameters : Attributes) (now : Timestamp)
    (resolved : Resolved) : Attempt Engine Crash (Bool × Resolved) := do
  let device ← askDevice
  resolving now resolved (conditionIn rule user device parameters)

/-- The first of some rules that matches, or else the last one that did not. -/
def firstMatch (event : Event) (user : Attributes) (intent : Intent) :
    List Rule → Resolved → Option NoMatch →
      Attempt Engine Crash (Except (Option NoMatch) Rule)
  | [], _, last => return .error last
  | rule :: rest, resolved, _ => do
      let (holds, resolved) ←
        conditionHolds rule user event.parameters event.timestamp resolved
      match ← onHistory (rule.judge holds intent event.timestamp) with
      | .ok rule => return .ok rule
      | .error miss => firstMatch event user intent rest resolved (some miss)

/-- The variant that a seed chooses among those of a rule. -/
def choose (rule : Rule) (seed : Seed) : Except AssignmentFault Variant :=
  (VariantOption.choose rule.variants seed).map VariantOption.toVariant

/-- The user's variant of the rule's experiment. -/
def variantFor (rule : Rule) : Intent → Attempt AssignmentCache Failure Variant
  | .commit => AssignmentCache.assign rule.experimentId (choose rule)
  | .preview => AssignmentCache.foresee rule.experimentId (choose rule)

/-- What a variant of a rule's experiment decides. -/
def outcomeOf (rule : Rule) (variant : Variant) : Outcome :=
  match variant.type with
  | .treatment => .matched rule variant
  | .holdout => .noMatch ⟨.holdout, rule.experimentId⟩

/-- Assign the user to a variant of a rule that matched. -/
def settle (event : Event) (rule : Rule) (intent : Intent) :
    Attempt Engine Crash Outcome := do
  match ← (onCache (variantFor rule intent)).caught with
  | .error failure => return .failed failure.kind
  | .ok variant =>
      if intent = .commit then
        report (.ofExperiment event.name
          ⟨rule.experimentId, rule.experimentGroupId, variant⟩ event.timestamp)
      return outcomeOf rule variant

/-- Record an event.  A history that fails does not stop the evaluation. -/
def recordEvent (event : Event) : Attempt Engine Crash Unit := do
  let _ ← (onHistory (History.append event.name event.timestamp)).caught
  return ()

/-- **Evaluate an event** against the rules. -/
def evaluate (event : Event) (rules : RuleSet) (intent : Intent) :
    Attempt Engine Crash Outcome := do
  match ← currentUser.caught with
  | .error fault => return .failed (Failure.persistence fault).kind
  | .ok user =>
      if intent = .commit then recordEvent event
      match rules.forEvent? event.name with
      | none => return .eventNotFound event.name
      | some candidates =>
          match ← firstMatch event user.attributes intent candidates [] none with
          | .ok rule => settle event rule intent
          | .error (some miss) => return .noMatch miss
          | .error none => return .eventNotFound event.name

end Placement.Engine
