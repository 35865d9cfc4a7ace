import Placement.Engine.Command
/-! # What evaluations are made of

An evaluation loads the user, asks the device, looks computed properties up, records what
happened, and assigns a variant and reports it.  **What holds of each of these, and of things
done one after the other, holds of evaluations and of preloading** (`Composes.evaluate`,
`Composes.preload`), whichever rules there are.
-/
namespace Placement.Engine
open Attempt

/-- What is said of steps may be said of steps put together, and holds of those that an
evaluation takes. -/
structure Composes (P : {ε α : Type} → Attempt Engine ε α → Prop) : Prop where
  pure : ∀ {ε α : Type} (x : α), P (pure x : Attempt Engine ε α)
  bind : ∀ {ε α β : Type} {step : Attempt Engine ε α} {next : α → Attempt Engine ε β},
    P step → (∀ x, P (next x)) → P (step >>= next)
  caught : ∀ {ε δ α : Type} {step : Attempt Engine ε α},
    P step → P (step.caught : Attempt Engine δ (Except ε α))
  currentUser : P currentUser
  askDevice : P askDevice
  condition : ∀ (rule : Rule) (user device parameters : Attributes) (now : Timestamp)
    (resolved : Resolved), P (resolving now resolved (conditionIn rule user device parameters))
  append : ∀ (name : String) (t : Timestamp), P (onHistory (History.append name t))
  judge : ∀ (rule : Rule) (holds : Bool) (intent : Intent) (t : Timestamp),
    P (onHistory (rule.judge holds intent t) : Attempt Engine Crash (Except NoMatch Rule))
  load : P (onCache AssignmentCache.load)
  variantFor : ∀ (rule : Rule) (intent : Intent), P (onCache (variantFor rule intent))
  report : ∀ fire : Fire, P (report fire)

namespace Composes
variable {P : {ε α : Type} → Attempt Engine ε α → Prop} (hP : Composes P)
include hP

/-- A step that is only taken under a condition. -/
theorem beforeIf {ε α β : Type} {p : Prop} [Decidable p] {step : Attempt Engine ε α}
    {rest : Attempt Engine ε β} (hstep : P step) (hrest : P rest) :
    P (if p then step >>= fun _ => rest else rest) := by
  by_cases hp : p
  · rw [if_pos hp]
    exact hP.bind hstep fun _ => hrest
  · rw [if_neg hp]
    exact hrest

theorem conditionHolds (rule : Rule) (user parameters : Attributes) (now : Timestamp)
    (resolved : Resolved) : P (conditionHolds rule user parameters now resolved) :=
  hP.bind hP.askDevice fun _ => hP.condition _ _ _ _ _ _

theorem firstMatch (event : Event) (user : Attributes) (intent : Intent) (rules : List Rule)
    (resolved : Resolved) (last : Option NoMatch) :
    P (firstMatch event user intent rules resolved last) := by
  induction rules generalizing resolved last with
  | nil => exact hP.pure _
  | cons rule rest ih =>
      refine hP.bind (hP.conditionHolds _ _ _ _ _) ?_
      rintro ⟨holds, resolved'⟩
      refine hP.bind (hP.judge _ _ _ _) ?_
      rintro (miss | matched)
      · exact ih resolved' (some miss)
      · exact hP.pure _

theorem settle (event : Event) (rule : Rule) (intent : Intent) : P (settle event rule intent) := by
  refine hP.bind (hP.caught (hP.variantFor rule intent)) ?_
  rintro (failure | variant)
  · exact hP.pure _
  · exact hP.beforeIf (hP.report _) (hP.pure _)

theorem recordEvent (event : Event) : P (recordEvent event) :=
  hP.bind (hP.caught (hP.append _ _)) fun _ => hP.pure _

theorem evaluate (event : Event) (rules : RuleSet) (intent : Intent) :
    P (evaluate event rules intent) := by
  refine hP.bind (hP.caught hP.currentUser) ?_
  rintro (fault | user)
  · exact hP.pure _
  · refine hP.beforeIf (hP.recordEvent event) ?_
    split
    · exact hP.pure _
    · refine hP.bind (hP.firstMatch _ _ _ _ _ _) ?_
      rintro ((_ | miss) | rule)
      · exact hP.pure _
      · exact hP.pure _
      · exact hP.settle _ _ _

theorem preloadAllowances (user : Attributes) (now : Timestamp) (rules : List Rule)
    (resolved : Resolved) : P (preloadAllowances user now rules resolved) := by
  induction rules generalizing resolved with
  | nil => exact hP.pure _
  | cons rule rest ih =>
      have hrest : ∀ holds resolved', P (do
          let others ← Engine.preloadAllowances user now rest resolved'
          return (rule, rule.preload.allows holds) :: others) :=
        fun holds resolved' => hP.bind (ih resolved') fun _ => hP.pure _
      rw [Engine.preloadAllowances]
      split
      · exact hP.bind (hP.conditionHolds _ _ _ _ _) fun answer => hrest answer.1 answer.2
      · exact hP.bind (hP.pure _) fun answer => hrest answer.1 answer.2

theorem preload (rules : RuleSet) (now : Timestamp) : P (preload rules now) := by
  refine hP.bind (hP.caught hP.currentUser) ?_
  rintro (fault | user)
  · exact hP.pure _
  · refine hP.bind (hP.caught hP.load) ?_
    rintro (fault | assignments)
    · exact hP.pure _
    · exact hP.bind (hP.preloadAllowances _ _ _ _) fun _ => hP.pure _

/-! ## As commands -/

theorem runPreview (event : Event) (rules : RuleSet) : P (Command.preview event rules).run :=
  hP.bind (hP.evaluate event rules .preview) fun _ => hP.pure _

theorem runPreload (rules : RuleSet) (now : Timestamp) : P (Command.preload rules now).run := by
  refine hP.bind (hP.preload rules now) ?_
  rintro (fault | ids) <;> exact hP.pure _

theorem ofStep {α : Type} {step : Attempt Engine PersistenceFault α} {reply : α → Reply}
    (h : P step) : P (Reply.ofStep step reply) := by
  refine hP.bind (hP.caught h) ?_
  rintro (fault | x) <;> exact hP.pure _

end Composes
end Placement.Engine
