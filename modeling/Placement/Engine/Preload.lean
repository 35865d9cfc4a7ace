import Placement.Engine.Evaluation
/-! # Loading paywalls ahead

The paywalls that may be loaded ahead are those of the variants the user has or would
get, **for every experiment that each of its rules allows**.  Nothing is recorded or
confirmed.
-/
namespace Placement.Engine

/-- Whether each of some rules allows its paywall to be loaded ahead.  Conditions are
evaluated without event parameters, and only where the answer depends on them. -/
def preloadAllowances (user : Attributes) (now : Timestamp) :
    List Rule → Resolved → Attempt Engine Crash (List (Rule × Bool))
  | [], _ => return []
  | rule :: rest, resolved => do
      let (holds, resolved) ←
        if rule.preload.behavior = .ifTrue then conditionHolds rule user ∅ now resolved
        else pure (true, resolved)
      let others ← preloadAllowances user now rest resolved
      return (rule, rule.preload.allows holds) :: others

/-- The variant of a rule's experiment that the user has or would get. -/
def variantAhead (assignments : Assignments) (rule : Rule) : Option Variant :=
  match assignments.confirmed.find? rule.experimentId with
  | some variant => some variant
  | none => (choose rule assignments.seed).toOption

/-- The variants of the experiments of some rules; of two rules of one experiment the
first with a variant counts. -/
def variantsAhead (assignments : Assignments) : List Rule → Dict Variant
  | [] => ∅
  | rule :: rest =>
      match variantAhead assignments rule with
      | some variant => (variantsAhead assignments rest).insert rule.experimentId variant
      | none => variantsAhead assignments rest

/-- The paywall of a variant that shows one. -/
def paywallAhead (variant : Variant) : Option String :=
  match variant.type with
  | .treatment => variant.paywallId
  | .holdout => none

/-- Whether all rules of an experiment allow its paywall to be loaded ahead. -/
def allowedAhead (allowances : List (Rule × Bool)) (experimentId : ExperimentId) : Bool :=
  allowances.all fun allowance => allowance.1.experimentId != experimentId || allowance.2

/-- The paywalls to load ahead, ascending. -/
def paywallsAhead (assignments : Assignments) (allowances : List (Rule × Bool)) : List String :=
  let variants := (variantsAhead assignments (allowances.map Prod.fst)).entries.filter
    fun entry => allowedAhead allowances entry.1
  (Dict.ofList ((variants.filterMap fun entry => paywallAhead entry.2).map fun id => (id, ()))).keys

/-- The paywalls that may be loaded ahead, with the rules gone through in a certain order. -/
def preloadInOrder (rules : List Rule) (now : Timestamp) :
    Attempt Engine Crash (Except PersistenceFault (List String)) := do
  match ← currentUser.caught with
  | .error fault => return .error fault
  | .ok user =>
      match ← (onCache AssignmentCache.load).caught with
      | .error fault => return .error fault
      | .ok assignments =>
          let allowances ← preloadAllowances user.attributes now rules []
          return .ok (paywallsAhead assignments allowances)

/-- **The paywalls that may be loaded ahead**, ascending. -/
def preload (rules : RuleSet) (now : Timestamp) :
    Attempt Engine Crash (Except PersistenceFault (List String)) :=
  preloadInOrder rules.all now

end Placement.Engine
