import Placement.Proofs.Engine.Composition
import Placement.Proofs.Engine.Identification
/-! # Reachable engines

An engine opens over some store, with nothing in memory, and evaluates events and runs
commands, in any order, with any replies and whichever accesses fail.  **Every engine that
it can become is consistent with its store** (`Engine.Reachable.consistent`).

Evaluations and the preloading of paywalls touch the user only to load it, and the
assignments only through the operations of the cache (`Engine.KeepsUser`); the rest of what
they change is the history and the collaborators.
-/
namespace Placement.Engine
open Attempt Store
variable {ε δ α β : Type} {d e f : Engine}

/-- The documents of the assignments. -/
def assignmentKeys : List String := [Key.seed.name, Key.confirmedAssignments.name]

/-- **The same user is known**, and nothing was stored but what is stored of the
assignments. -/
structure SameUser (e d : Engine) : Prop where
  consistent : Consistent d
  currentId : d.currentId = e.currentId
  changes : ChangesOnly assignmentKeys e.store d.store

theorem SameUser.trans (hd : SameUser e d) (hf : SameUser d f) : SameUser e f :=
  ⟨hf.consistent, hf.currentId.trans hd.currentId, hd.changes.trans hf.changes⟩

/-- The step leaves the user of a consistent engine. -/
def KeepsUser (step : Attempt Engine ε α) : Prop :=
  step.Within fun e d => Consistent e → SameUser e d

theorem KeepsUser.bind {step : Attempt Engine ε α} {next : α → Attempt Engine ε β}
    (hstep : KeepsUser step) (hnext : ∀ x, KeepsUser (next x)) : KeepsUser (step >>= next) :=
  Within.bind (fun hst htu he => (hst he).trans (htu (hst he).consistent)) hstep hnext

theorem keepsUser_pure (x : α) : KeepsUser (pure x : Attempt Engine ε α) :=
  fun _ he => ⟨he, rfl, .refl _ _⟩

theorem KeepsUser.caught {step : Attempt Engine ε α} (h : KeepsUser step) :
    KeepsUser (step.caught : Attempt Engine δ (Except ε α)) :=
  Within.caught h

/-- A step that leaves user, assignments and store. -/
theorem keepsUser_of_same {step : Attempt Engine ε α}
    (h : ∀ e, SameMemory e (step.outcome e).2 ∧
      (step.outcome e).2.store.documents = e.store.documents) : KeepsUser step :=
  fun e he => ⟨he.congr (h e).1 (h e).2,
    (h e).1.currentId (congrArg Persisted.id (persisted_of_documents_eq (h e).2)),
    .of_documents_eq _ (h e).2⟩

theorem keepsUser_onHistory (step : Attempt History ε α) :
    KeepsUser (onHistory step) :=
  keepsUser_of_same fun _ => ⟨⟨rfl, rfl, rfl⟩, rfl⟩

theorem keepsUser_askDevice : KeepsUser askDevice := by
  refine keepsUser_of_same fun e => ?_
  rw [askDevice, outcome_bind, outcome_get]
  dsimp only
  rw [outcome_bind, outcome_modify]
  dsimp only
  split <;> exact ⟨⟨rfl, rfl, rfl⟩, rfl⟩

theorem keepsUser_report (fire : Fire) : KeepsUser (report fire) := by
  refine keepsUser_of_same fun e => ?_
  rw [report, outcome_bind, outcome_get]
  dsimp only
  split <;> exact ⟨⟨rfl, rfl, rfl⟩, rfl⟩

theorem keepsUser_resolving (now : Timestamp) (resolved : Resolved)
    (step : Attempt Resolver Crash α) : KeepsUser (resolving now resolved step) := by
  refine keepsUser_of_same fun e => ?_
  show SameMemory e (resolving now resolved step e).2 ∧ _
  rw [outcome, resolving]
  split <;> exact ⟨⟨rfl, rfl, rfl⟩, rfl⟩

theorem keepsUser_currentUser : KeepsUser currentUser := by
  intro e he
  obtain ⟨hd, -, hid, -⟩ := currentUser_spec he (Prod.eta _).symm
  exact ⟨hd, hid, .of_documents_eq _ (documents_currentUser e)⟩

/-- Operations on the assignments leave the user. -/
theorem Consistent.sameUser_setCache (he : Consistent e) {cache : AssignmentCache}
    (hcache : cache.Coherent) (hchanges : ChangesOnly assignmentKeys e.cache.store cache.store) :
    SameUser e { e with cache } := by
  refine ⟨he.setCache hcache hchanges, ?_, hchanges⟩
  have hid : (Engine.persisted { e with cache }).id = e.persisted.id :=
    persisted_id_changesOnly (e := e) hchanges (by decide)
  rw [currentId, currentId, hid]

theorem keepsUser_load : KeepsUser (onCache AssignmentCache.load) := by
  intro e he
  obtain ⟨hc, hchanges, -⟩ := AssignmentCache.load_spec he.cache
    (Prod.eta (AssignmentCache.load.outcome e.cache)).symm
  exact he.sameUser_setCache hc (hchanges.mono (by decide))

theorem keepsUser_variantFor (rule : Rule) (intent : Intent) :
    KeepsUser (onCache (variantFor rule intent)) := by
  intro e he
  cases intent with
  | commit =>
      obtain ⟨hc, hchanges, -⟩ := AssignmentCache.assign_spec he.cache
        (Prod.eta ((AssignmentCache.assign rule.experimentId (choose rule)).outcome e.cache)).symm
      exact he.sameUser_setCache hc hchanges
  | preview =>
      obtain ⟨hc, hchanges⟩ := AssignmentCache.foresee_spec he.cache
        (Prod.eta ((AssignmentCache.foresee rule.experimentId (choose rule)).outcome e.cache)).symm
      exact he.sameUser_setCache hc (hchanges.mono (by decide))

/-- **Evaluations and preloading leave the user.** -/
theorem composes_keepsUser : Composes fun step => KeepsUser step where
  pure := keepsUser_pure
  bind := KeepsUser.bind
  caught := KeepsUser.caught
  currentUser := keepsUser_currentUser
  askDevice := keepsUser_askDevice
  condition _ _ _ _ _ _ := keepsUser_resolving _ _ _
  append _ _ := keepsUser_onHistory _
  judge _ _ _ _ := keepsUser_onHistory _
  load := keepsUser_load
  variantFor := keepsUser_variantFor
  report := keepsUser_report

/-! ## Commands -/

theorem keepsUser_restore (server : List ServerAssignment) (rules : RuleSet) :
    KeepsUser (restore server rules) := by
  intro e he
  obtain ⟨hc, hchanges, -⟩ := AssignmentCache.adopt_spec he.cache
    (Prod.eta ((AssignmentCache.adopt server rules).outcome e.cache)).symm
  exact he.sameUser_setCache hc hchanges

/-- To reply changes nothing. -/
theorem state_ofStep (step : Attempt Engine PersistenceFault α) (reply : α → Reply) (e : Engine) :
    ((Reply.ofStep step reply).outcome e).2 = (step.outcome e).2 := by
  rw [Reply.ofStep, outcome_bind, outcome_caught]
  rcases step.outcome e with ⟨fault | x, d⟩ <;> rfl

/-- The step leads from consistent engines to consistent engines. -/
def KeepsConsistent (step : Attempt Engine ε α) : Prop :=
  step.Within fun e d => Consistent e → Consistent d

theorem keepsConsistent_run (command : Command) : KeepsConsistent command.run := by
  intro e he
  cases command with
  | preview event rules => exact (composes_keepsUser.runPreview event rules e he).consistent
  | reset =>
      rw [Command.run, state_ofStep]
      exact (reset_spec (Prod.eta _).symm).1
  | identify userId =>
      rw [Command.run, state_ofStep]
      exact (identify_spec he (Prod.eta _).symm).1
  | setAttributes changes =>
      rw [Command.run, state_ofStep]
      exact (setAttributes_spec he (Prod.eta _).symm).1
  | restore server rules =>
      rw [Command.run, state_ofStep]
      exact (keepsUser_restore server rules e he).consistent
  | preload rules now => exact (composes_keepsUser.runPreload rules now e he).consistent

/-- **What an engine can become**, with the store and the collaborators it is opened over. -/
inductive Reachable : Engine → Prop
  /-- Over any store, with nothing in memory. -/
  | opened (engine : Engine) : Reachable engine.reopen
  | evaluated {engine : Engine} (event : Event) (rules : RuleSet) :
      Reachable engine → Reachable ((evaluate event rules .commit).outcome engine).2
  | commanded {engine : Engine} (command : Command) :
      Reachable engine → Reachable (command.run.outcome engine).2
  /-- Device, receiver and history do what they like in between. -/
  | surrounded {engine : Engine} (device : Device) (reporter : Reporter) (history : History) :
      Reachable engine → Reachable { engine with device, reporter, history }

theorem consistent_reopen (e : Engine) : Consistent e.reopen :=
  consistent_of_user_eq_none (AssignmentCache.coherent_of_loaded_eq_none rfl) rfl

theorem Reachable.consistent (h : Reachable e) : Consistent e := by
  induction h with
  | opened engine => exact consistent_reopen engine
  | evaluated event rules _ ih =>
      exact (composes_keepsUser.evaluate event rules .commit _ ih).consistent
  | commanded command _ ih => exact keepsConsistent_run command _ ih
  | surrounded device reporter history _ ih => exact ih.congr ⟨rfl, rfl, rfl⟩ rfl

end Placement.Engine
