import Placement.Proofs.Assignments.Stickiness
import Placement.Proofs.Engine.Committing
/-! # Previews foretell

A committed evaluation records its event before any condition is judged, so its conditions see
one event more than those of a preview.  **If no question that the preview asks of the history
is about the event itself, both come to the same** (`preview_foretells_commit`).  The commit has
to report a fire, which the preview does not; the receiver is not supposed to break down then.

The questions of a preview are read off its own run (`Engine.readings`), and there are as many
as the history counts (`reads_preview`).  Runs are compared question by question: a run that
has not yet asked about the event has had the same answers over both histories
(`Resolver.Unaffected`).
-/
namespace Placement
open Attempt

/-! ## Resolvers over two histories -/

namespace Resolver
variable {α β : Type} {name : String} {r q : Resolver}

/-- The resolver once it has asked one more question. -/
def questioned (r : Resolver) : Resolver :=
  { r with history := { r.history with reads := r.history.reads + 1 } }

/-- **Two resolvers that agree on all but the events of one name**, over histories that do not
fail. -/
structure Apart (name : String) (r q : Resolver) : Prop where
  times : ∀ other, other ≠ name → q.history.times other = r.history.times other
  calm : r.history.faults = .none
  calm' : q.history.faults = .none
  now : q.now = r.now
  resolved : q.resolved = r.resolved

theorem Apart.questioned (h : Apart name r q) : Apart name r.questioned q.questioned :=
  ⟨h.times, h.calm, h.calm', h.now, h.resolved⟩

/-- No answer is about events of this name. -/
def Avoids (name : String) (resolved : Resolved) : Prop :=
  ∀ entry ∈ resolved, entry.1.eventName ≠ name

theorem Avoids.mono {s t : Resolved} (h : Avoids name t) (hst : s ⊆ t) : Avoids name s :=
  fun entry hentry => h entry (hst hentry)

/-- **The resolver has found out more**, and has asked a question for each answer that it did
not know before. -/
structure Grows (r t : Resolver) : Prop where
  calm : t.history.faults = .none
  now : t.now = r.now
  known : r.resolved ⊆ t.resolved
  reads : t.history.reads + r.resolved.length = r.history.reads + t.resolved.length

theorem Grows.refl (hr : r.history.faults = .none) : Grows r r :=
  ⟨hr, rfl, List.Subset.refl r.resolved, rfl⟩

theorem Grows.trans {t u : Resolver} (ht : Grows r t) (hu : Grows t u) : Grows r u := by
  refine ⟨hu.calm, hu.now.trans ht.now, List.Subset.trans ht.known hu.known, ?_⟩
  have hfirst := ht.reads
  have hnext := hu.reads
  omega

/-- Over a history that does not fail, the step only finds out more; and **as long as it has
found out nothing about events of one name, it does not see them**. -/
structure Unaffected (name : String) (step : Attempt Resolver Crash α) : Prop where
  grows : step.Within fun r t => r.history.faults = .none → Grows r t
  same : ∀ r q, Apart name r q → Avoids name (step.outcome r).2.resolved →
    (step.outcome q).1 = (step.outcome r).1 ∧ Apart name (step.outcome r).2 (step.outcome q).2

theorem unaffected_pure (x : α) : Unaffected name (pure x : Attempt Resolver Crash α) :=
  ⟨fun _ => Grows.refl, fun _ _ h _ => ⟨rfl, h⟩⟩

theorem Unaffected.bind {step : Attempt Resolver Crash α} {next : α → Attempt Resolver Crash β}
    (hstep : Unaffected name step) (hnext : ∀ x, Unaffected name (next x)) :
    Unaffected name (step >>= next) := by
  refine ⟨hstep.grows.bind ?_ fun x => (hnext x).grows, ?_⟩
  · exact fun ht hu hr => (ht hr).trans (hu (ht hr).calm)
  intro r q h havoids
  rcases hr : step.outcome r with ⟨crash | x, r₁⟩
  · rw [outcome_bind_error hr] at havoids ⊢
    obtain ⟨hresult, happart⟩ := hstep.same r q h (by rw [hr]; exact havoids)
    rw [hr] at hresult happart
    rw [outcome_bind_error (outcome_eq_of_result hresult)]
    exact ⟨rfl, happart⟩
  · rw [outcome_bind_ok hr] at havoids ⊢
    -- What the first step has found out, the second one still knows.
    have hgrown := hstep.grows r h.calm
    rw [hr] at hgrown
    have hfirst : Avoids name r₁.resolved := havoids.mono ((hnext x).grows r₁ hgrown.calm).known
    obtain ⟨hresult, happart⟩ := hstep.same r q h (by rw [hr]; exact hfirst)
    rw [hr] at hresult happart
    rw [outcome_bind_ok (outcome_eq_of_result hresult)]
    exact (hnext x).same r₁ _ happart havoids

/-! ## One question -/

theorem outcome_asked {γ : Type} (access : HistoryAccess) (answer : History → γ) (f : γ → Int)
    (hr : r.history.faults = .none) :
    (asked do return f (← History.ask access answer)).outcome r =
      (.ok (f (answer r.history)), r.questioned) := by
  rcases r with ⟨⟨events, reads, faults⟩, now, resolved⟩
  cases hr
  rfl

/-- The latest of some times. -/
def latest : List Timestamp → Option Timestamp
  | [] => none
  | t :: rest => some (rest.foldl Timestamp.later t)

/-- **What a request asks depends on the time**, and the answer on when its event happened; or
it is no question at all, since it counts from a time too early. -/
theorem outcome_consult (request : PropertyRequest) (now : Timestamp) :
    (∀ r : Resolver, r.now = now → (consult request).outcome r = (.error .unrepresentableTime, r)) ∨
    ∃ answer : List Timestamp → Int, ∀ r : Resolver, r.now = now → r.history.faults = .none →
      (consult request).outcome r =
        (.ok (answer (r.history.times request.eventName)), r.questioned) := by
  cases hquestion : request.property.question with
  | since measure =>
      refine .inr ⟨fun times => ((latest times).map (measure now)).getD 0, ?_⟩
      intro r hnow hcalm
      rw [consult, outcome_bind_ok (outcome_get r), hquestion, hnow]
      exact outcome_asked .mostRecent _ _ hcalm
  | within window =>
      cases hstart : now.minus? window with
      | none =>
          refine .inl fun r hnow => ?_
          rw [consult, outcome_bind_ok (outcome_get r), hquestion, hnow]
          dsimp only
          rw [hstart]
          rfl
      | some start =>
          refine .inr ⟨fun times =>
            ofCount (times.countP fun t => decide (start ≤ t) && decide (t ≤ now)), ?_⟩
          intro r hnow hcalm
          rw [consult, outcome_bind_ok (outcome_get r), hquestion, hnow]
          dsimp only
          rw [hstart]
          exact outcome_asked .count _ _ hcalm
  | ever =>
      refine .inr ⟨fun times =>
        ofCount (times.countP fun t => decide (Timestamp.first ≤ t) && decide (t ≤ now)), ?_⟩
      intro r hnow hcalm
      rw [consult, outcome_bind_ok (outcome_get r), hquestion, hnow]
      exact outcome_asked .count _ _ hcalm

/-- **A request sees the events of its own name only.** -/
theorem unaffected_answer (request : PropertyRequest) : Unaffected name (answer request) := by
  refine ⟨?_, ?_⟩
  · intro r hcalm
    rw [answer, outcome_bind_ok (outcome_get r), known?]
    cases hknown : r.resolved.lookup request with
    | some found => exact .refl hcalm
    | none =>
        dsimp only
        rcases outcome_consult request r.now with hnever | ⟨found, hfound⟩
        · rw [outcome_bind_error (hnever r rfl)]
          exact .refl hcalm
        · rw [outcome_bind_ok (hfound r rfl hcalm)]
          exact ⟨hcalm, rfl, List.subset_cons_self _ _, Nat.add_right_comm ..⟩
  · intro r q h havoids
    rw [answer, outcome_bind_ok (outcome_get r), known?] at havoids ⊢
    rw [outcome_bind_ok (outcome_get q), known?, h.resolved]
    cases hknown : r.resolved.lookup request with
    | some found => exact ⟨rfl, h⟩
    | none =>
        rw [hknown] at havoids
        dsimp only at havoids ⊢
        rcases outcome_consult request r.now with hnever | ⟨found, hfound⟩
        · rw [outcome_bind_error (hnever r rfl), outcome_bind_error (hnever q h.now)]
          exact ⟨rfl, h⟩
        · rw [outcome_bind_ok (hfound r rfl h.calm)] at havoids ⊢
          rw [outcome_bind_ok (hfound q h.now h.calm')]
          -- The request is among what is found out, so it is about another name.
          have hother : request.eventName ≠ name := havoids _ List.mem_cons_self
          rw [h.times _ hother]
          exact ⟨rfl, h.times, h.calm, h.calm', h.now, congrArg ((request, _) :: ·) h.resolved⟩

/-- **So does a condition.** -/
theorem composes_unaffected (name : String) : Composes fun step => Unaffected name step where
  pure := unaffected_pure
  bind := Unaffected.bind
  answer := unaffected_answer

/-- Try some rules, up to the first one whose condition holds, with what the device shows for
each of them. -/
def searching (user parameters : Attributes) :
    Tape (Option Attributes) → List Rule → Attempt Resolver Crash (Option Rule)
  | _, [] => return none
  | device, rule :: rest =>
      match device.head with
      | none => throw .device
      | some shown => do
          if ← Engine.conditionIn rule user shown parameters then return some rule
          else searching user parameters device.tail rest

theorem unaffected_throw (crash : Crash) :
    Unaffected name (throw crash : Attempt Resolver Crash α) :=
  ⟨fun _ => Grows.refl, fun _ _ h _ => ⟨rfl, h⟩⟩

theorem unaffected_searching (user parameters : Attributes) (device : Tape (Option Attributes))
    (rules : List Rule) : Unaffected name (searching user parameters device rules) := by
  induction rules generalizing device with
  | nil => exact unaffected_pure _
  | cons rule rest ih =>
      rw [searching]
      cases device.head with
      | none => exact unaffected_throw _
      | some shown =>
          refine ((composes_unaffected _).conditionIn rule user shown parameters).bind ?_
          rintro (_ | _)
          · exact ih device.tail
          · exact unaffected_pure _

end Resolver

/-! ## Assignments over a store that does not fail -/

namespace AssignmentCache
variable {ε α β : Type} {c d : AssignmentCache} {experimentId : ExperimentId}

/-- The step is no reason for a store to fail. -/
def KeepsCalm (step : Attempt AssignmentCache ε α) : Prop :=
  step.Within fun c d => c.store.faults = .none → d.store.faults = .none

theorem KeepsCalm.bind {step : Attempt AssignmentCache ε α} {next : α → Attempt AssignmentCache ε β}
    (hstep : KeepsCalm step) (hnext : ∀ x, KeepsCalm (next x)) : KeepsCalm (step >>= next) :=
  Within.bind (fun hst htu hs => htu (hst hs)) hstep hnext

theorem keepsCalm_read (key : Key α) : KeepsCalm (onStore key.read) := by
  intro c hc
  rw [onStore, outcome_on, key.outcome_read_of_calm hc]
  exact hc

theorem keepsCalm_write (key : Key α) (x : α) : KeepsCalm (onStore (key.write x)) := by
  intro c hc
  rw [onStore, outcome_on, key.outcome_write_of_calm hc]
  exact hc

theorem keepsCalm_of_store {step : Attempt AssignmentCache ε α}
    (h : ∀ c, (step.outcome c).2.store = c.store) : KeepsCalm step := by
  intro c hc
  rw [h, hc]

theorem keepsCalm_storedSeed : KeepsCalm storedSeed := by
  refine (keepsCalm_read _).bind fun stored => ?_
  split
  · exact keepsCalm_of_store fun _ => rfl
  · refine KeepsCalm.bind (keepsCalm_of_store fun _ => rfl) fun seed => ?_
    exact (keepsCalm_write _ _).bind fun _ => keepsCalm_of_store fun _ => rfl

theorem keepsCalm_load : KeepsCalm load := by
  refine KeepsCalm.bind (keepsCalm_of_store fun _ => rfl) fun c => ?_
  split
  · exact keepsCalm_of_store fun _ => rfl
  · refine keepsCalm_storedSeed.bind fun seed => (keepsCalm_read _).bind fun confirmed => ?_
    exact KeepsCalm.bind (keepsCalm_of_store fun _ => rfl) fun _ =>
      keepsCalm_of_store fun _ => rfl

/-- **What is assigned is what was foreseen**: nothing but the store could keep it from being
confirmed. -/
theorem assign_eq_foresee (hc : Coherent c) (hcalm : c.store.faults = .none)
    (experimentId : ExperimentId) (pick : Seed → Except AssignmentFault Variant) :
    ((assign experimentId pick).outcome c).1 = ((foresee experimentId pick).outcome c).1 := by
  rcases hload : load.outcome c with ⟨fault | assignments, d⟩
  · rw [assign, foresee, outcome_bind_error (outcome_mapFault_error hload),
      outcome_bind_error (outcome_mapFault_error hload)]
  · have hd : d.store.faults = .none := by
      have hkept := keepsCalm_load c hcalm
      rwa [hload] at hkept
    have hcommitted (assignments : Assignments) : ((commit assignments).outcome d).1 = .ok () := by
      rw [commit, outcome_bind, onStore, outcome_on,
        Key.confirmedAssignments.outcome_write_of_calm hd]
      rfl
    rw [outcome_assign_of_load hc hload, foresee, outcome_bind_ok (outcome_mapFault_ok hload)]
    cases assignments.confirmed.find? experimentId with
    | some found => rfl
    | none =>
        cases pick assignments.seed with
        | error fault => rfl
        | ok chosen =>
            dsimp only
            rw [hcommitted]
            rfl

end AssignmentCache

namespace Engine
open AssignmentCache
variable {d e f : Engine} {event : Event} {rules : RuleSet}

/-! ## The search for a match -/

/-- What a search for a match comes to. -/
def concluding (candidates : List Rule) (last : Option NoMatch) :
    Option Rule → Except (Option NoMatch) Rule
  | some rule => .ok rule
  | none => .error ((missOf candidates).or last)

theorem concluding_cons (rule : Rule) (rest : List Rule) (last : Option NoMatch) :
    concluding (rule :: rest) last = concluding rest (some ⟨.expression, rule.experimentId⟩) := by
  funext found
  cases found with
  | none => rw [concluding, concluding, missOf_cons_or]
  | some later => rfl

theorem cache_recordingMatch (intent : Intent) (rule : Rule) (t : Timestamp) :
    (e.recordingMatch intent rule t).cache = e.cache := by
  cases intent <;> rfl

theorem reporter_recordingMatch (intent : Intent) (rule : Rule) (t : Timestamp) :
    (e.recordingMatch intent rule t).reporter = e.reporter := by
  cases intent <;> rfl

/-- **Rules are tried with one resolver**, which is handed on from one to the next. -/
theorem outcome_firstMatch {found : Except Crash (Option Rule)} {r : Resolver}
    (hfaults : e.history.faults = .none) (user : Attributes) (intent : Intent)
    (candidates : List Rule) (resolved : Resolved) (last : Option NoMatch)
    (hfound : (Resolver.searching user event.parameters e.device.answers candidates).outcome
      ⟨e.history, event.timestamp, resolved⟩ = (found, r)) :
    ∃ d, (firstMatch event user intent candidates resolved last).outcome e =
        (found.map (concluding candidates last), d) ∧
      d.cache = e.cache ∧ d.reporter = e.reporter ∧
      (intent = .preview → d.history = r.history) := by
  induction candidates generalizing e resolved last with
  | nil =>
      cases hfound
      exact ⟨e, rfl, rfl, rfl, fun _ => rfl⟩
  | cons rule rest ih =>
      rw [Resolver.searching] at hfound
      rw [firstMatch]
      cases hdevice : e.device.answers.head with
      | none =>
          rw [hdevice] at hfound
          cases hfound
          rw [outcome_bind_error (outcome_conditionHolds_none hdevice ..)]
          exact ⟨_, rfl, rfl, rfl, fun _ => rfl⟩
      | some shown =>
          rw [hdevice] at hfound
          dsimp only at hfound
          have hunaffected : Resolver.Unaffected event.name
              (conditionIn rule user shown event.parameters) :=
            (Resolver.composes_unaffected _).conditionIn ..
          have hgrown := hunaffected.grows ⟨e.history, event.timestamp, resolved⟩ hfaults
          have hcondition := outcome_conditionHolds hdevice rule user event.parameters
            event.timestamp resolved
          rcases hjudged : (conditionIn rule user shown event.parameters).outcome
            ⟨e.history, event.timestamp, resolved⟩ with ⟨crash | (_ | _), t⟩
          all_goals rw [hjudged] at hgrown hcondition
          · rw [outcome_bind_error hjudged] at hfound
            cases hfound
            rw [outcome_bind_error hcondition]
            exact ⟨_, rfl, rfl, rfl, fun _ => rfl⟩
          · rw [outcome_bind_ok hjudged] at hfound
            rw [outcome_bind_ok hcondition, outcome_bind_ok (outcome_judge_false rule intent _)]
            -- The next rule finds the history and the answers that this one left.
            have ht : (⟨t.history, event.timestamp, t.resolved⟩ : Resolver) = t := by
              rw [← show t.now = event.timestamp from hgrown.now]
            obtain ⟨d, hrest, hsame⟩ := ih (e := { e.askedDevice with history := t.history })
              hgrown.calm t.resolved (some ⟨.expression, rule.experimentId⟩) (ht ▸ hfound)
            refine ⟨d, ?_, hsame⟩
            rw [hrest, concluding_cons]
          · rw [outcome_bind_ok hjudged] at hfound
            cases hfound
            rw [outcome_bind_ok hcondition,
              outcome_bind_ok (outcome_judge_true hgrown.calm rule intent _)]
            refine ⟨_, rfl, cache_recordingMatch .., reporter_recordingMatch .., ?_⟩
            rintro rfl
            rfl

/-- **A search for the rule that matches.** -/
def search (event : Event) (rules : RuleSet) (user : User) (e : Engine) :
    Except Crash (Option Rule) × Resolver :=
  (Resolver.searching user.attributes event.parameters e.device.answers
    (candidates rules event)).outcome (.new e.history event.timestamp)

theorem firstMatch_of_search (hfaults : e.history.faults = .none) (event : Event) (rules : RuleSet)
    (user : User) (intent : Intent) :
    ∃ d, (firstMatch event user.attributes intent (candidates rules event) [] none).outcome e =
        ((search event rules user e).1.map (concluding (candidates rules event) none), d) ∧
      d.cache = e.cache ∧ d.reporter = e.reporter ∧
      (intent = .preview → d.history = (search event rules user e).2.history) :=
  outcome_firstMatch hfaults user.attributes intent (candidates rules event) [] none rfl

theorem unaffected_search (event : Event) (rules : RuleSet) (user : User) (e : Engine) :
    Resolver.Unaffected event.name (Resolver.searching user.attributes event.parameters
      e.device.answers (candidates rules event)) :=
  Resolver.unaffected_searching ..

theorem grows_search (hfaults : e.history.faults = .none) (event : Event) (rules : RuleSet)
    (user : User) :
    Resolver.Grows (.new e.history event.timestamp) (search event rules user e).2 :=
  (unaffected_search event rules user e).grows _ hfaults

/-! ## What a preview reads -/

/-- **The questions that a preview asks of the history**, the last one first. -/
def readings (event : Event) (rules : RuleSet) (e : Engine) : List PropertyRequest :=
  match currentUser.outcome e with
  | (.error _, _) => []
  | (.ok user, f) => (search event rules user f).2.resolved.map Prod.fst

theorem outcome_evaluate_previewed {user : User} (event : Event) (rules : RuleSet)
    (hload : currentUser.outcome e = (.ok user, f)) :
    (evaluate event rules .preview).outcome e =
      (deciding event rules user .preview).outcome f := by
  have hpreview : ¬Intent.preview = .commit := by decide
  rw [outcome_evaluate_of_load event rules .preview hload, if_neg hpreview]

theorem outcome_settle_preview (e : Engine) (event : Event) (rule : Rule) :
    (settle event rule .preview).outcome e =
      match (variantFor rule .preview).outcome e.cache with
      | (.error failure, cache) => (.ok (.failed failure.kind), { e with cache })
      | (.ok variant, cache) => (.ok (outcomeOf rule variant), { e with cache }) := by
  rw [settle, outcome_bind, outcome_caught, onCache, outcome_on]
  rcases (variantFor rule .preview).outcome e.cache with ⟨failure | variant, cache⟩ <;> rfl

/-- What follows the search asks nothing of the history. -/
theorem history_deciding_preview (hfaults : e.history.faults = .none) (event : Event)
    (rules : RuleSet) (user : User) :
    ((deciding event rules user .preview).outcome e).2.history =
      (search event rules user e).2.history := by
  obtain ⟨d, hfirst, -, -, hhistory⟩ := firstMatch_of_search hfaults event rules user .preview
  rw [deciding, ← hhistory rfl]
  rcases hfound : (search event rules user e).1 with crash | (_ | rule)
  all_goals rw [hfound] at hfirst
  · rw [outcome_bind_error hfirst]
  · rw [outcome_bind_ok hfirst, concluding]
    cases (missOf (candidates rules event)).or none <;> rfl
  · rw [outcome_bind_ok hfirst, concluding]
    dsimp only
    rw [outcome_settle_preview]
    rcases (variantFor rule .preview).outcome d.cache with ⟨failure | variant, cache⟩ <;> rfl

/-- **These are all of its questions**: there are as many as the history counts. -/
theorem reads_preview (hfaults : e.history.faults = .none) (event : Event) (rules : RuleSet) :
    ((evaluate event rules .preview).outcome e).2.history.reads =
      e.history.reads + (readings event rules e).length := by
  have hsame := sameSurroundings_currentUser e
  rw [readings]
  rcases hload : currentUser.outcome e with ⟨fault | user, f⟩
  · rw [hload] at hsame
    rw [outcome_evaluate_unloaded event rules .preview hload, ← hsame.history]
    rfl
  · rw [hload] at hsame
    have hcalm : f.history.faults = .none := by rw [hsame.history, hfaults]
    have hgrown := (grows_search hcalm event rules user).reads
    rw [outcome_evaluate_previewed event rules hload, history_deciding_preview hcalm,
      List.length_map, ← hsame.history]
    exact hgrown

/-! ## What it foretells -/

/-- A search that has read nothing about the event comes to the same once it is recorded. -/
theorem search_recording (hfaults : e.history.faults = .none) {user : User}
    (havoids : Resolver.Avoids event.name (search event rules user e).2.resolved) :
    (search event rules user (e.recording event)).1 = (search event rules user e).1 := by
  have hother : ∀ other, other ≠ event.name →
      (e.recording event).history.times other = e.history.times other := by
    intro other hother
    rw [History.times, History.times, recording, History.record, Dict.find?_insert,
      if_neg (Ne.symm hother)]
  exact ((unaffected_search event rules user e).same (.new e.history event.timestamp)
    (.new (e.recording event).history event.timestamp)
    ⟨hother, hfaults, hfaults, rfl, rfl⟩ havoids).1

theorem calm_currentUser (h : e.store.faults = .none) :
    (currentUser.outcome e).2.store.faults = .none := by
  have hread : ∀ {α : Type} (key : Key α), (Engine.onStore key.read).Within
      fun e d => e.store.faults = .none → d.store.faults = .none := by
    intro α key e he
    rw [Engine.onStore, outcome_on, key.outcome_read_of_calm he]
    exact he
  exact within_currentUser (fun _ => id) (fun hst htu hs => htu (hst hs)) hread (fun _ _ => id) e h

/-- To settle on a variant comes to what was foreseen. -/
theorem settle_foretold (hcoherent : e.cache.Coherent) (hcalm : e.cache.store.faults = .none)
    (hcache : d.cache = e.cache) (hreceives : d.reporter.broken = false) (rule : Rule) :
    ((settle event rule .commit).outcome d).1 = ((settle event rule .preview).outcome e).1 := by
  have hforeseen : ((variantFor rule .commit).outcome e.cache).1 =
      ((variantFor rule .preview).outcome e.cache).1 :=
    assign_eq_foresee hcoherent hcalm rule.experimentId (choose rule)
  rw [outcome_settle_commit, outcome_settle_preview, hcache]
  rcases hassign : (variantFor rule .commit).outcome e.cache with ⟨result, cache⟩
  rcases hforesee : (variantFor rule .preview).outcome e.cache with ⟨result', cache'⟩
  rw [hassign, hforesee] at hforeseen
  cases hforeseen
  cases result with
  | error failure => rfl
  | ok variant =>
      dsimp only
      rw [hreceives, if_neg Bool.false_ne_true]

/-- The same for the search that precedes it, over one history and another. -/
theorem deciding_foretold (hfaults : e.history.faults = .none) (hcoherent : e.cache.Coherent)
    (hcalm : e.cache.store.faults = .none) (hreceives : e.reporter.broken = false) (user : User)
    (hfound : (search event rules user (e.recording event)).1 = (search event rules user e).1) :
    ((deciding event rules user .commit).outcome (e.recording event)).1 =
      ((deciding event rules user .preview).outcome e).1 := by
  obtain ⟨p, hpreview, hp, -, -⟩ := firstMatch_of_search hfaults event rules user .preview
  obtain ⟨q, hcommit, hq, hreporter, -⟩ := firstMatch_of_search (e := e.recording event) hfaults
    event rules user .commit
  rw [deciding, deciding]
  rw [hfound] at hcommit
  rcases hsearch : (search event rules user e).1 with crash | (_ | rule)
  all_goals rw [hsearch] at hpreview hcommit
  · rw [outcome_bind_error hpreview, outcome_bind_error hcommit]
  · rw [outcome_bind_ok hpreview, outcome_bind_ok hcommit, concluding, Option.or_none]
    cases missOf (candidates rules event) <;> rfl
  · rw [outcome_bind_ok hpreview, outcome_bind_ok hcommit]
    refine settle_foretold ?_ ?_ (hq.trans hp.symm) ?_ rule
    · rwa [hp]
    · rwa [hp]
    · rw [hreporter]
      exact hreceives

/-- **A preview foretells what a commit comes to**, from every engine that can be reached, over
a store and a history that do not fail, if it asks nothing about the event itself: the commit
has the same outcome, or the same crash.  The receiver of fires must not break down, as it
promises. -/
theorem preview_foretells_commit (he : Reachable e) (hhistory : e.history.faults = .none)
    (hstore : e.store.faults = .none) (hreceives : e.reporter.broken = false) (event : Event)
    (rules : RuleSet)
    (hreads : ∀ request ∈ readings event rules e, request.eventName ≠ event.name) :
    ((evaluate event rules .commit).outcome e).1 =
      ((evaluate event rules .preview).outcome e).1 := by
  have hsame := sameSurroundings_currentUser e
  have hcalm := calm_currentUser hstore
  rw [readings] at hreads
  rcases hload : currentUser.outcome e with ⟨fault | user, f⟩
  · rw [outcome_evaluate_unloaded event rules .commit hload,
      outcome_evaluate_unloaded event rules .preview hload]
  · rw [hload] at hsame hcalm hreads
    have hkept : f.history.faults = .none := by rw [hsame.history, hhistory]
    have hcoherent : f.cache.Coherent := (currentUser_spec he.consistent hload).1.cache
    have havoids : Resolver.Avoids event.name (search event rules user f).2.resolved :=
      fun entry hentry => hreads entry.1 (List.mem_map_of_mem hentry)
    rw [outcome_evaluate_loaded event rules hload hkept,
      outcome_evaluate_previewed event rules hload]
    exact deciding_foretold hkept hcoherent hcalm (by rw [hsame.reporter, hreceives]) user
      (search_recording hkept havoids)

/-- A rule for users to whom something has never happened. -/
def unlessSeen (name : String) : Rule :=
  { welcome with
    expressionTree := some (.relation .equal
      (.method (.ident "platform") "placementsSinceInstall" [.literal (.string name)])
      (.literal (.int 0))) }

/-- The rules for a launch with such a rule. -/
def unlessSeenRules (name : String) : RuleSet :=
  ⟨0, Dict.ofList [(firstLaunch.name, [unlessSeen name])]⟩

/-- The first launch of a user who has bought nothing. -/
theorem foretold_firstLaunch :
    readings firstLaunch (unlessSeenRules "purchase") (welcoming false) =
        [⟨.placementsSinceInstall, "purchase"⟩] ∧
      ((evaluate firstLaunch (unlessSeenRules "purchase") .commit).outcome (welcoming false)).1 =
        .ok (.matched (unlessSeen "purchase") ⟨"gold", .treatment, some "gold"⟩) := by
  have hreadings : readings firstLaunch (unlessSeenRules "purchase") (welcoming false) =
      [⟨.placementsSinceInstall, "purchase"⟩] := by decide +kernel
  refine ⟨hreadings, ?_⟩
  rw [preview_foretells_commit (reachable_welcoming false) rfl rfl rfl firstLaunch
    (unlessSeenRules "purchase") ?_]
  · with_unfolding_all rfl
  · rw [hreadings]
    decide

/-- A rule that asks about the event itself may match in a preview only. -/
example :
    ((evaluate firstLaunch (unlessSeenRules "launch") .preview).outcome (welcoming false)).1 =
        .ok (.matched (unlessSeen "launch") ⟨"gold", .treatment, some "gold"⟩) ∧
      ((evaluate firstLaunch (unlessSeenRules "launch") .commit).outcome (welcoming false)).1 =
        .ok (.noMatch ⟨.expression, "welcome"⟩) := by
  constructor
  · with_unfolding_all rfl
  · with_unfolding_all rfl

end Engine
end Placement
