import Placement.Proofs.Assignments.Session
/-! # Stickiness

**Once a variant is assigned or confirmed for an experiment, every later answer for it is
that variant**, until the experiment is released.  Such an answer only loads what is
stored (`recalling`): the function that would pick another variant is not asked.
-/
namespace Placement.AssignmentCache
open Attempt Store CacheRequest
variable {c d : AssignmentCache} {experimentId : ExperimentId} {variant : Variant}

/-- Load what is stored, and answer with a variant that is known already. -/
def recalling (variant : Variant) : Attempt AssignmentCache Failure Variant := do
  let _ ← load.mapFault Failure.persistence
  return variant

theorem recalling_ok {found : Variant} (h : ((recalling variant).outcome c).1 = .ok found) :
    found = variant := by
  rw [recalling, outcome_bind] at h
  split at h <;> cases h
  rfl

theorem Confirmed.find?_eq_some (hc : Coherent c) (hx : Confirmed experimentId variant c)
    {assignments : Assignments} (hload : load.outcome c = (.ok assignments, d)) :
    assignments.confirmed.find? experimentId = some variant := by
  obtain ⟨confirmed, hconfirmed, hfind⟩ := hx
  obtain ⟨-, -, -, hloaded⟩ := load_ok_spec hc hload
  rw [hconfirmed] at hloaded
  cases hloaded
  exact hfind

theorem Confirmed.outcome_assign (hc : Coherent c) (hx : Confirmed experimentId variant c)
    (pick : Seed → Except AssignmentFault Variant) :
    (assign experimentId pick).outcome c = (recalling variant).outcome c := by
  rw [assign, recalling]
  rcases hload : load.outcome c with ⟨fault | assignments, c₁⟩
  · rw [outcome_bind_error (outcome_mapFault_error hload),
      outcome_bind_error (outcome_mapFault_error hload)]
  · rw [outcome_bind_ok (outcome_mapFault_ok hload), outcome_bind_ok (outcome_mapFault_ok hload)]
    simp only [hx.find?_eq_some hc hload]

theorem Confirmed.outcome_foresee (hc : Coherent c) (hx : Confirmed experimentId variant c)
    (pick : Seed → Except AssignmentFault Variant) :
    (foresee experimentId pick).outcome c = (recalling variant).outcome c := by
  rw [foresee, recalling]
  rcases hload : load.outcome c with ⟨fault | assignments, c₁⟩
  · rw [outcome_bind_error (outcome_mapFault_error hload),
      outcome_bind_error (outcome_mapFault_error hload)]
  · rw [outcome_bind_ok (outcome_mapFault_ok hload), outcome_bind_ok (outcome_mapFault_ok hload)]
    simp only [hx.find?_eq_some hc hload]

/-- Confirming where nothing is confirmed only commits. -/
theorem outcome_confirm_of_find?_eq_none {assignments : Assignments}
    (hloaded : c.loaded = some assignments)
    (hfind : assignments.confirmed.find? experimentId = none) :
    (confirm experimentId variant).outcome c =
      ((commit { assignments with
        confirmed := assignments.confirmed.insert experimentId variant }).mapFault
          Failure.persistence).outcome c := by
  rw [confirm, outcome_bind_ok (outcome_mapFault_ok (load_of_loaded hloaded))]
  simp only [hfind]

/-- **What an assignment comes to** once the assignments are loaded: what is picked is
committed, unless a variant was confirmed before. -/
theorem outcome_assign_of_load {assignments : Assignments} (hc : Coherent c)
    (hload : load.outcome c = (.ok assignments, d))
    (pick : Seed → Except AssignmentFault Variant) :
    (assign experimentId pick).outcome c =
      match assignments.confirmed.find? experimentId, pick assignments.seed with
      | some found, _ => (.ok found, d)
      | none, .error fault => (.error (.assignment fault), d)
      | none, .ok chosen =>
          let committed := (commit { assignments with
            confirmed := assignments.confirmed.insert experimentId chosen }).outcome d
          ((committed.1.mapError Failure.persistence).map fun _ => chosen, committed.2) := by
  obtain ⟨-, -, hloaded, -⟩ := load_ok_spec hc hload
  rw [assign, outcome_bind_ok (outcome_mapFault_ok hload)]
  cases hfind : assignments.confirmed.find? experimentId with
  | some found => rfl
  | none =>
      dsimp only
      rw [outcome_bind, outcome_ofResult]
      cases pick assignments.seed with
      | error fault => rfl
      | ok chosen =>
          dsimp only [Except.mapError]
          rw [outcome_bind, outcome_confirm_of_find?_eq_none hloaded hfind, outcome_mapFault]
          generalize (commit _).outcome d = committed
          obtain ⟨fault | ⟨⟩, d'⟩ := committed <;> rfl

/-- **To assign never meets another confirmed variant**: nothing comes between the look-up
and the confirmation. -/
theorem assign_ne_conflict (hc : Coherent c) (pick : Seed → Except AssignmentFault Variant)
    (other : ExperimentId) (existing attempted : VariantId) :
    ((assign experimentId pick).outcome c).1 ≠ .error (.conflict other existing attempted) := by
  intro h
  rcases hload : load.outcome c with ⟨fault | assignments, c₁⟩
  · rw [assign, outcome_bind_error (outcome_mapFault_error hload)] at h
    cases h
  · rw [outcome_assign_of_load hc hload] at h
    split at h
    · cases h
    · cases h
    · dsimp only at h
      generalize (commit _).outcome c₁ = committed at h
      obtain ⟨fault | ⟨⟩, c₂⟩ := committed <;> cases h

/-- **Assignments are sticky**, whatever was asked before and whichever accesses to the
store failed.  After an event that settles the variant of an experiment, and requests that
do not release it, assigning and foreseeing both recall this variant; resets and adoptions
that fail release nothing; and assigning never runs into a conflict. -/
theorem settled_variant_is_recalled (store : Store) (seeds : Tape Seed)
    (earlier : List CacheRequest) (experimentId : ExperimentId) :
    let c := after earlier (ofStore store seeds)
    (∀ (settling : CacheRequest) (variant : Variant) (between : List CacheRequest),
      Settles experimentId variant ⟨settling, (settling.perform c).1⟩ →
      (∀ event ∈ events between (settling.perform c).2, ¬ Releases experimentId event) →
      ∀ pick : Seed → Except AssignmentFault Variant,
        let d := after between (settling.perform c).2
        (assign experimentId pick).outcome d = (recalling variant).outcome d ∧
        (foresee experimentId pick).outcome d = (recalling variant).outcome d ∧
        ∀ found, ((recalling variant).outcome d).1 = .ok found → found = variant) ∧
    (∀ (variant : Variant) (fault : PersistenceFault), Confirmed experimentId variant c →
      ((reset.outcome c).1 = .error fault →
        Confirmed experimentId variant (reset.outcome c).2) ∧
      ∀ (server : List ServerAssignment) (rules : RuleSet),
        ((adopt server rules).outcome c).1 = .error fault →
          Confirmed experimentId variant ((adopt server rules).outcome c).2) ∧
    ∀ (pick : Seed → Except AssignmentFault Variant) (other : ExperimentId)
      (existing attempted : VariantId),
      ((assign experimentId pick).outcome c).1 ≠ .error (.conflict other existing attempted) := by
  intro c
  have hc : Coherent c := (coherent_ofStore store seeds).after earlier
  refine ⟨?_, ?_, ?_⟩
  · intro settling variant between hsettles hkept pick d
    have hsettled := hc.perform settling
    have hd : Coherent d := hsettled.after between
    have hx : Confirmed experimentId variant d :=
      (confirmed_of_settles hc hsettles).after hsettled between hkept
    exact ⟨hx.outcome_assign hd pick, hx.outcome_foresee hd pick, fun _ => recalling_ok⟩
  · intro variant fault hx
    exact ⟨hx.reset_error, fun server rules => hx.adopt_error hc⟩
  · intro pick other existing attempted
    exact assign_ne_conflict hc pick other existing attempted

/-- A variant is assigned in an empty store, a reset fails, and the cache is opened anew:
the variant is recalled. -/
theorem assigned_variant_is_recalled_after_failed_reset :
    let down : Faults StoreAccess := ⟨fun n _ => if n = 4 then some "down" else none⟩
    let c := ofStore { documents := ∅, faults := down, changed := [] } (Tape.const default)
    let holdout : Variant := ⟨"out", .holdout, none⟩
    let d := after [.assign "spring" fun _ => .ok holdout, .reset, .reopen] c
    (assign "spring" fun _ => .error .noVariants).outcome d = (recalling holdout).outcome d := by
  intro down c holdout d
  have hsettles : Settles "spring" holdout
      ⟨.assign "spring" fun _ => .ok holdout,
        ((CacheRequest.assign "spring" fun _ => .ok holdout).perform c).1⟩ :=
    .assigned _
  have hevents : events [.reset, .reopen]
      ((CacheRequest.assign "spring" fun _ => .ok holdout).perform c).2 =
        [⟨.reset, .changed (.error (.write "store.seed" "down"))⟩, ⟨.reopen, .reopened⟩] := rfl
  refine ((settled_variant_is_recalled c.store c.seeds [] "spring").1 _ holdout
    [.reset, .reopen] hsettles ?_ _).1
  intro event hevent
  rcases List.mem_cons.mp (hevents ▸ hevent) with rfl | hlast
  · nofun
  · rw [List.mem_singleton.mp hlast]
    nofun

end Placement.AssignmentCache
