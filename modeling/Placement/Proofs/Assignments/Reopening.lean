import Placement.Proofs.Assignments.Session
/-! # Opening a cache anew

To drop what is in memory and to open a new cache over the same store **changes no later
answer**: the first request that needs the assignments loads them, and finds what was in
memory before (`load_reopened`).  From then on both caches are in the same state.

The reads of this reload are the only accesses that the cache that stayed open does not
make.  So the tapes of the two caches differ by two entries, at which the reads must not
fail (`MeetsReload`).
-/
namespace Placement

namespace CacheRequest

/-- The request needs the assignments in memory. -/
def loads : CacheRequest → Bool
  | .reset => false
  | .reopen => false
  | _ => true

end CacheRequest

namespace AssignmentCache
open Attempt Store CacheRequest
variable {c : AssignmentCache} {faults : Faults StoreAccess}

/-- A new cache over the same store, whose accesses meet certain failures. -/
def reopenedWith (faults : Faults StoreAccess) (cache : AssignmentCache) : AssignmentCache :=
  { cache.reopen with store := { cache.store with faults } }

/-- The tape of a cache that is opened anew before a request, compared with that of the
cache that stays open: where the request makes it reload, the two reads come first and do
not fail. -/
def MeetsReload (request : CacheRequest) (cache : AssignmentCache)
    (faults : Faults StoreAccess) : Prop :=
  if cache.loaded ≠ none ∧ request.loads then
    faults.head (.read Key.seed.name) = none ∧
    faults.tail.head (.read Key.confirmedAssignments.name) = none ∧
    faults.tail.tail = cache.store.faults
  else faults = cache.store.faults

theorem outcome_onStore_read {α : Type} {key : Key α}
    (h : c.store.faults.head (.read key.name) = none) :
    (onStore key.read).outcome c =
      (key.stored c.store.documents, { c with store := c.store.passed }) := by
  rw [onStore, outcome_on, Key.outcome_read, h]

/-- **What a new cache loads is what was in memory.** -/
theorem load_reopened (hc : Coherent c) {assignments : Assignments}
    (hloaded : c.loaded = some assignments)
    (hseed : faults.head (.read Key.seed.name) = none)
    (hconfirmed : faults.tail.head (.read Key.confirmedAssignments.name) = none)
    (hrest : faults.tail.tail = c.store.faults) :
    load.outcome (c.reopenedWith faults) = (.ok assignments, c) := by
  obtain ⟨hstored, hmap⟩ := hc assignments hloaded
  obtain ⟨found, hfound, hgetD⟩ : ∃ found,
      Key.confirmedAssignments.stored c.store.documents = .ok found ∧
        found.getD ∅ = assignments.confirmed := by
    rw [confirmedIn] at hmap
    cases hread : Key.confirmedAssignments.stored c.store.documents with
    | error fault =>
        rw [hread] at hmap
        cases hmap
    | ok found =>
        rw [hread] at hmap
        exact ⟨found, rfl, Except.ok.inj hmap⟩
  let c₁ : AssignmentCache :=
    { c.reopenedWith faults with store := (c.reopenedWith faults).store.passed }
  have hfirst : storedSeed.outcome (c.reopenedWith faults) = (.ok assignments.seed, c₁) := by
    have hread : (onStore Key.seed.read).outcome (c.reopenedWith faults) =
        (.ok (some assignments.seed), c₁) := by
      rw [outcome_onStore_read hseed]
      exact congrArg (·, c₁) hstored
    rw [storedSeed, outcome_bind_ok hread]
    rfl
  have hsecond : (onStore Key.confirmedAssignments.read).outcome c₁ =
      (.ok found, { c₁ with store := c₁.store.passed }) := by
    rw [outcome_onStore_read hconfirmed]
    exact congrArg (·, _) hfound
  rw [load_of_not_loaded rfl, outcome_bind_ok hfirst, outcome_bind_ok hsecond, outcome_bind,
    hgetD]
  obtain ⟨store, seeds, loaded⟩ := c
  obtain ⟨documents, tape, changed⟩ := store
  cases hloaded
  cases hrest
  rfl

/-- A request that loads does the same after two loads that come out alike. -/
theorem perform_congr {c d : AssignmentCache} {request : CacheRequest}
    (hloads : request.loads = true) (h : load.outcome d = load.outcome c) :
    request.perform d = request.perform c := by
  have hfault : ∀ f : PersistenceFault → Failure,
      (load.mapFault f).outcome d = (load.mapFault f).outcome c := by
    intro f
    rw [outcome_mapFault, outcome_mapFault, h]
  cases request with
  | seed => rw [perform, perform, AssignmentCache.seed, outcome_bind, outcome_bind, h]
  | useSeed other => rw [perform, perform, AssignmentCache.useSeed, outcome_bind, outcome_bind, h]
  | adopt server rules =>
      rw [perform, perform, AssignmentCache.adopt, outcome_bind, outcome_bind, h]
  | assign experimentId pick =>
      rw [perform, perform, AssignmentCache.assign, outcome_bind, outcome_bind, hfault]
  | foresee experimentId pick =>
      rw [perform, perform, AssignmentCache.foresee, outcome_bind, outcome_bind, hfault]
  | confirm experimentId variant =>
      rw [perform, perform, AssignmentCache.confirm, outcome_bind, outcome_bind, hfault]
  | reset => cases hloads
  | reopen => cases hloads

/-- A step on the store does not look at what is in memory, and leaves it. -/
theorem outcome_onStore_reopen {α : Type} (step : Attempt Store PersistenceFault α)
    (c : AssignmentCache) :
    (onStore step).outcome c.reopen =
      (((onStore step).outcome c).1, ((onStore step).outcome c).2.reopen) := rfl

theorem outcome_clear_reopen (seed : Seed) (c : AssignmentCache) :
    (clear seed).outcome c.reopen =
      (((clear seed).outcome c).1, ((clear seed).outcome c).2.reopen) := by
  rw [clear, outcome_bind, outcome_bind, outcome_onStore_reopen]
  rcases (onStore (Key.seed.write seed)).outcome c with ⟨fault | ⟨⟩, d⟩ <;> rfl

/-- A reset leaves nothing of what was in memory. -/
theorem outcome_reset_reopen (c : AssignmentCache) : reset.outcome c.reopen = reset.outcome c := by
  have hclear := outcome_clear_reopen c.seeds.head { c with seeds := c.seeds.tail }
  rw [reopen] at hclear
  rw [outcome_reset, outcome_reset, reopen, hclear]
  rcases (clear c.seeds.head).outcome { c with seeds := c.seeds.tail } with ⟨fault | ⟨⟩, d⟩ <;> rfl

/-- **Where the reads of the reload succeed, a request does the same in a new cache.** -/
theorem perform_reopenedWith (hc : Coherent c) {request : CacheRequest}
    (hfaults : MeetsReload request c faults) :
    request.perform (c.reopenedWith faults) = request.perform c := by
  -- Either the request makes the new cache reload, or the two caches differ at most in what
  -- is in memory, which the request does not look at.
  rw [MeetsReload] at hfaults
  split at hfaults
  · rename_i hreloads
    obtain ⟨hseed, hconfirmed, hrest⟩ := hfaults
    cases hloaded : c.loaded with
    | none => exact absurd hloaded hreloads.1
    | some assignments =>
        refine perform_congr hreloads.2 ?_
        rw [load_reopened hc hloaded hseed hconfirmed hrest, load_of_loaded hloaded]
  · rename_i hstays
    have hreopen : c.reopenedWith faults = c.reopen := by
      rw [hfaults]
      rfl
    rw [hreopen]
    by_cases hloaded : c.loaded = none
    · have hsame : c.reopen = c := by
        rw [reopen, ← hloaded]
      rw [hsame]
    · have hloads : request.loads ≠ true := fun h => hstays ⟨hloaded, h⟩
      cases request with
      | reset =>
          rw [perform, perform, outcome_reset_reopen]
      | reopen => rfl
      | _ => exact absurd rfl hloads

/-- **Memory never disagrees with the store**, whatever was asked and whichever accesses
failed: what is loaded is what the store holds.  So a new cache over the same store, which
shows no confirmed assignments until it loads them, gives the same replies as the cache
that stays open, and comes to the same state. -/
theorem reopened_replies_alike (store : Store) (seeds : Tape Seed) (earlier : List CacheRequest) :
    let c := after earlier (ofStore store seeds)
    (∀ assignments, c.loaded = some assignments →
      Key.seed.stored c.store.documents = .ok (some assignments.seed) ∧
      (Key.confirmedAssignments.stored c.store.documents).map (·.getD ∅) =
        .ok assignments.confirmed) ∧
    ∀ faults : Faults StoreAccess,
      (c.reopenedWith faults).confirmedSnapshot = ∅ ∧
      ∀ (request : CacheRequest) (later : List CacheRequest), MeetsReload request c faults →
        events (request :: later) (c.reopenedWith faults) = events (request :: later) c ∧
        after (request :: later) (c.reopenedWith faults) = after (request :: later) c := by
  intro c
  have hc : Coherent c := (coherent_ofStore store seeds).after earlier
  refine ⟨hc, ?_⟩
  intro faults
  refine ⟨rfl, ?_⟩
  intro request later hfaults
  have hperform := perform_reopenedWith hc hfaults
  rw [events, events, after, after, hperform]
  exact ⟨rfl, rfl⟩

/-- A cache that assigned a variant is opened anew and loads it. -/
theorem reopened_after_assignment_replies_alike :
    let holdout : Variant := ⟨"out", .holdout, none⟩
    let c := after [.assign "spring" fun _ => .ok holdout]
      (ofStore (ofDocuments ∅) (Tape.const default))
    c.loaded = some ⟨default, Dict.insert ∅ "spring" holdout⟩ ∧
    events [.foresee "spring" fun _ => .error .noVariants, .reset] (c.reopenedWith .none) =
      events [.foresee "spring" fun _ => .error .noVariants, .reset] c := by
  intro holdout c
  have hloaded : c.loaded = some ⟨default, Dict.insert ∅ "spring" holdout⟩ := rfl
  refine ⟨hloaded, ?_⟩
  refine (((reopened_replies_alike (ofDocuments ∅) (Tape.const default)
    [.assign "spring" fun _ => .ok holdout]).2 .none).2 _ _ ?_).1
  show MeetsReload _ c .none
  rw [MeetsReload, if_pos ⟨by rw [hloaded]; nofun, rfl⟩]
  exact ⟨rfl, rfl, rfl⟩

end AssignmentCache
end Placement
