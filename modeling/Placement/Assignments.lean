import Placement.Failure
import Placement.Rule
/-! # Sticky assignments

**A user keeps the variant of an experiment once it is confirmed**, until the
assignments are reset or the server decides otherwise.  The seed and the confirmed
assignments are loaded from the store when they are first needed.  They are written
to the store before they change in memory, so memory never runs ahead of the store;
after a reset that failed halfway they are loaded again.
-/
namespace Placement

/-- The seed and the confirmed assignments of a user. -/
structure Assignments where
  seed : Seed
  confirmed : Dict Variant
  deriving DecidableEq

/-- The assignments of a user: in the store and, once they are loaded, in memory. -/
structure AssignmentCache where
  store : Store
  /-- The seeds that will be drawn. -/
  seeds : Tape Seed
  loaded : Option Assignments

namespace AssignmentCache

/-- Nothing is loaded yet. -/
def ofStore (store : Store) (seeds : Tape Seed) : AssignmentCache := ⟨store, seeds, none⟩

/-- Forget what is in memory. -/
def reopen (cache : AssignmentCache) : AssignmentCache := { cache with loaded := none }

/-- The confirmed assignments in memory, none until they are loaded. -/
def confirmedSnapshot (cache : AssignmentCache) : Dict Variant :=
  match cache.loaded with
  | some assignments => assignments.confirmed
  | none => ∅

/-- A step on the store. -/
def onStore {α : Type} (step : Attempt Store PersistenceFault α) :
    Attempt AssignmentCache PersistenceFault α :=
  step.on AssignmentCache.store fun store cache => { cache with store }

/-- Draw a new seed. -/
def draw {ε : Type} : Attempt AssignmentCache ε Seed := do
  let cache ← get
  set { cache with seeds := cache.seeds.tail }
  return cache.seeds.head

/-- Replace what is in memory. -/
def remember {ε : Type} (assignments : Assignments) : Attempt AssignmentCache ε Unit :=
  modify fun cache => { cache with loaded := some assignments }

/-- The seed in the store.  If there is none, one is drawn and stored. -/
def storedSeed : Attempt AssignmentCache PersistenceFault Seed := do
  match ← onStore Key.seed.read with
  | some seed => return seed
  | none =>
      let seed ← draw
      onStore (Key.seed.write seed)
      return seed

/-- What is in memory; if nothing is, it is loaded first. -/
def load : Attempt AssignmentCache PersistenceFault Assignments := do
  match (← get).loaded with
  | some assignments => return assignments
  | none =>
      let seed ← storedSeed
      let confirmed := (← onStore Key.confirmedAssignments.read).getD ∅
      remember ⟨seed, confirmed⟩
      return ⟨seed, confirmed⟩

/-- The seed. -/
def seed : Attempt AssignmentCache PersistenceFault Seed := do
  return (← load).seed

/-- Store confirmed assignments, and keep them in memory once they are stored. -/
def commit (assignments : Assignments) : Attempt AssignmentCache PersistenceFault Unit := do
  onStore (Key.confirmedAssignments.write assignments.confirmed)
  remember assignments

/-- **Confirm a variant for an experiment.**  To confirm it again changes nothing; to
confirm another one is refused. -/
def confirm (experimentId : ExperimentId) (variant : Variant) :
    Attempt AssignmentCache Failure Unit := do
  let assignments ← load.mapFault Failure.persistence
  match assignments.confirmed.find? experimentId with
  | some existing =>
      if existing = variant then return ()
      else throw (.conflict experimentId existing.id variant.id)
  | none =>
      (commit { assignments with
        confirmed := assignments.confirmed.insert experimentId variant }).mapFault .persistence

/-- The confirmed variant of an experiment, or else the one that `assign` picks for the
seed; nothing is confirmed. -/
def foresee (experimentId : ExperimentId) (assign : Seed → Except AssignmentFault Variant) :
    Attempt AssignmentCache Failure Variant := do
  let assignments ← load.mapFault Failure.persistence
  match assignments.confirmed.find? experimentId with
  | some variant => return variant
  | none => Attempt.ofResult (assign assignments.seed |>.mapError .assignment)

/-- **The confirmed variant of an experiment, or else the one that `assign` picks** for
the seed, which is confirmed. -/
def assign (experimentId : ExperimentId) (assign : Seed → Except AssignmentFault Variant) :
    Attempt AssignmentCache Failure Variant := do
  let assignments ← load.mapFault Failure.persistence
  match assignments.confirmed.find? experimentId with
  | some variant => return variant
  | none =>
      let variant ← Attempt.ofResult (assign assignments.seed |>.mapError .assignment)
      confirm experimentId variant
      return variant

/-- **Forget all assignments** and draw a new seed.  If the store fails, what is in
memory is dropped, so that the next use loads what was stored. -/
def reset : Attempt AssignmentCache PersistenceFault Unit := do
  let seed ← draw
  let written ← Attempt.caught do
    onStore (Key.seed.write seed)
    onStore (Key.confirmedAssignments.write ∅)
  match written with
  | .ok () => remember ⟨seed, ∅⟩
  | .error fault =>
      modify reopen
      throw fault

/-- Replace the seed; confirmed assignments stay. -/
def useSeed (seed : Seed) : Attempt AssignmentCache PersistenceFault Unit := do
  let assignments ← load
  if assignments.seed = seed then return ()
  else
    onStore (Key.seed.write seed)
    remember { assignments with seed }

/-- The assignments of the server that name a variant of the rules, with the variant. -/
def knownVariants (rules : RuleSet) (server : List ServerAssignment) :
    List (ExperimentId × Variant) :=
  server.filterMap fun assignment =>
    (rules.variant? assignment.experimentId assignment.variantId).map fun option =>
      (assignment.experimentId, option.toVariant)

/-- **Take over assignments that the server decided**, in place of those confirmed here;
of two for one experiment the later counts.  Those that name no variant of the rules are
skipped.  Returns how many were taken over. -/
def adopt (server : List ServerAssignment) (rules : RuleSet) :
    Attempt AssignmentCache PersistenceFault Nat := do
  let assignments ← load
  let known := knownVariants rules server
  commit { assignments with confirmed := assignments.confirmed.insertAll known }
  return known.length

end AssignmentCache
end Placement
