import Placement.Dispatcher
import Placement.Proofs.Assignments.Stickiness
import Placement.Proofs.Engine.Conditions
import Placement.Proofs.Engine.Reachable
/-! # Committed evaluations, end to end

One committed evaluation writes to the history, to the assignments and to the receiver of
fires, and reads the first two back while it decides.  `Engine.Committed` lists the ways in
which it can end, each with **all that it leaves in the three places**;
`Engine.committed_evaluate` says that there are no others, for every engine that can be
reached and a history that does not fail.

The conditions are judged by what was there when the evaluation began, and by the event
itself: it is recorded before the first of them.
-/
namespace Placement

namespace AssignmentCache
open Attempt
variable {c d : AssignmentCache} {experimentId : ExperimentId} {variant : Variant}

/-- **What was assigned is visible**: it is among the confirmed assignments in memory. -/
theorem confirmedSnapshot_of_assign {pick : Seed → Except AssignmentFault Variant}
    (hc : Coherent c) (h : (assign experimentId pick).outcome c = (.ok variant, d)) :
    d.confirmedSnapshot.find? experimentId = some variant := by
  rcases hload : load.outcome c with ⟨fault | assignments, c₁⟩
  · rw [assign, outcome_bind_error (outcome_mapFault_error hload)] at h
    cases h
  · obtain ⟨-, -, hloaded, -⟩ := load_ok_spec hc hload
    rw [outcome_assign_of_load hc hload] at h
    split at h
    · rename_i found hfind
      cases h
      rw [confirmedSnapshot, hloaded]
      exact hfind
    · cases h
    · rename_i chosen hfind hpick
      rcases hcommit : (commit { assignments with
          confirmed := assignments.confirmed.insert experimentId chosen }).outcome c₁
        with ⟨fault | ⟨⟩, c₂⟩
      all_goals
        rw [hcommit] at h
        cases h
      rw [confirmedSnapshot, (commit_ok_spec hcommit).1]
      exact Dict.find?_insert_self _ _ _

end AssignmentCache

namespace Engine
open Attempt AssignmentCache
variable {d e f : Engine}

/-! ## What an evaluation leaves behind -/

/-- The rules for an event, in the order they are tried. -/
def candidates (rules : RuleSet) (event : Event) : List Rule :=
  (rules.forEvent? event.name).getD []

/-- By what the conditions for an event are judged: by what is there, and by the event. -/
def sceneOf (engine : Engine) (event : Event) (user : User) : Scene :=
  { engine.scene user.attributes event.parameters event.timestamp with
    events := History.record engine.history.events event.name event.timestamp }

/-- What an evaluation left behind: names that were recorded with the time of the event, in
their order, fires that were reported, and how often the device was asked. -/
structure Traces (event : Event) (recorded : List String) (fires : List Fire) (queries : Nat)
    (e d : Engine) : Prop where
  events : d.history.events =
    recorded.foldl (fun events name => History.record events name event.timestamp) e.history.events
  faults : d.history.faults = e.history.faults
  fires : d.reporter.fires = e.reporter.fires ++ fires
  device : d.device = ⟨e.device.answers.drop queries, e.device.queries + queries⟩

/-- The fire that reports a variant of a rule's experiment. -/
def fireOf (event : Event) (rule : Rule) (variant : Variant) : Fire where
  eventName := event.name
  experiment := ⟨rule.experimentId, rule.experimentGroupId, variant⟩
  holdout := decide (variant.type = .holdout)
  time := ⟨event.timestamp, false⟩

/-- **What the caller is told of a variant** of a rule's experiment. -/
inductive Told (rule : Rule) (variant : Variant) : Outcome → Prop
  | treatment (h : variant.type = .treatment) : Told rule variant (.matched rule variant)
  | holdout (h : variant.type = .holdout) :
      Told rule variant (.noMatch ⟨.holdout, rule.experimentId⟩)

/-- The outcome if none of the rules for an event holds. -/
def outcomeOfNone (event : Event) (rules : List Rule) : Outcome :=
  match missOf rules with
  | some miss => .noMatch miss
  | none => .eventNotFound event.name

/-- **The user is loaded and the search gets to a rule**: those before it do not hold. -/
structure Gets (event : Event) (rules : RuleSet) (e : Engine) (user : User)
    (missed : List Rule) (rule : Rule) : Prop where
  loaded : (currentUser.outcome e).1 = .ok user
  tried : missed ++ [rule] <+: candidates rules event
  before : (e.sceneOf event user).Misses missed

/-- Whether the condition of the rule holds when it is judged after some others. -/
def judges (event : Event) (e : Engine) (user : User) (missed : List Rule) (rule : Rule) :
    Except Crash Bool :=
  ((e.sceneOf event user).ahead missed.length).holds rule

/-- **How a committed evaluation ends**: what comes of it, and what it leaves.

The assignments are left as the loading of the user left them, or as the assignment of a
variant left them after that. -/
inductive Committed (event : Event) (rules : RuleSet) (e d : Engine) :
    Except Crash Outcome → Prop
  /-- The user cannot be loaded: nothing is recorded. -/
  | unloaded {fault : PersistenceFault}
      (unloaded : (currentUser.outcome e).1 = .error fault)
      (cache : d.cache = (currentUser.outcome e).2.cache)
      (traces : Traces event [] [] 0 e d) :
      Committed event rules e d (.ok (.failed .persistence))
  /-- No rule holds, or there is none. -/
  | unmatched {user : User}
      (loaded : (currentUser.outcome e).1 = .ok user)
      (missed : (e.sceneOf event user).Misses (candidates rules event))
      (cache : d.cache = (currentUser.outcome e).2.cache)
      (traces : Traces event [event.name] [] (candidates rules event).length e d) :
      Committed event rules e d (.ok (outcomeOfNone event (candidates rules event)))
  /-- A condition brings the engine down: only the event is recorded. -/
  | broken {user : User} {missed : List Rule} {rule : Rule} {crash : Crash}
      (gets : Gets event rules e user missed rule)
      (judged : judges event e user missed rule = .error crash)
      (cause : crash = .device ∧ e.device.answers.entry missed.length = none ∨
        crash = .unrepresentableTime ∧ Scene.CountsTooFarBack event.timestamp)
      (cache : d.cache = (currentUser.outcome e).2.cache)
      (traces : Traces event [event.name] [] (missed.length + 1) e d) :
      Committed event rules e d (.error crash)
  /-- A rule matches, but no variant can be assigned: the match is recorded all the same. -/
  | unassigned {user : User} {missed : List Rule} {rule : Rule} {failure : Failure}
      (gets : Gets event rules e user missed rule)
      (judged : judges event e user missed rule = .ok true)
      (assigned : (variantFor rule .commit).outcome (currentUser.outcome e).2.cache =
        (.error failure, d.cache))
      (traces : Traces event [event.name, rule.occurrenceEvent] [] (missed.length + 1) e d) :
      Committed event rules e d (.ok (.failed failure.kind))
  /-- A rule matches and a variant is assigned, which is confirmed and reported once. -/
  | assigned {user : User} {missed : List Rule} {rule : Rule} {variant : Variant}
      {outcome : Outcome}
      (gets : Gets event rules e user missed rule)
      (judged : judges event e user missed rule = .ok true)
      (assigned : (variantFor rule .commit).outcome (currentUser.outcome e).2.cache =
        (.ok variant, d.cache))
      (stored : Confirmed rule.experimentId variant d.cache)
      (visible : d.cache.confirmedSnapshot.find? rule.experimentId = some variant)
      (told : Told rule variant outcome)
      (traces : Traces event [event.name, rule.occurrenceEvent] [fireOf event rule variant]
        (missed.length + 1) e d) :
      Committed event rules e d (.ok outcome)
  /-- The receiver of fires brings the engine down: what is done stays done. -/
  | unreported {user : User} {missed : List Rule} {rule : Rule} {variant : Variant}
      (gets : Gets event rules e user missed rule)
      (judged : judges event e user missed rule = .ok true)
      (assigned : (variantFor rule .commit).outcome (currentUser.outcome e).2.cache =
        (.ok variant, d.cache))
      (stored : Confirmed rule.experimentId variant d.cache)
      (visible : d.cache.confirmedSnapshot.find? rule.experimentId = some variant)
      (cause : e.reporter.broken = true)
      (traces : Traces event [event.name, rule.occurrenceEvent] [] (missed.length + 1) e d) :
      Committed event rules e d (.error .reporter)

/-! ## The steps of an evaluation -/

/-- History, device and receiver are the same. -/
structure SameSurroundings (e d : Engine) : Prop where
  history : d.history = e.history
  device : d.device = e.device
  reporter : d.reporter = e.reporter

theorem SameSurroundings.refl (e : Engine) : SameSurroundings e e := ⟨rfl, rfl, rfl⟩

theorem SameSurroundings.trans (hd : SameSurroundings e d) (hf : SameSurroundings d f) :
    SameSurroundings e f :=
  ⟨hf.history.trans hd.history, hf.device.trans hd.device, hf.reporter.trans hd.reporter⟩

/-- To load the user touches the store only. -/
theorem sameSurroundings_currentUser : Within SameSurroundings currentUser :=
  within_currentUser .refl .trans (fun _ _ => ⟨rfl, rfl, rfl⟩) fun _ _ => ⟨rfl, rfl, rfl⟩

/-- The engine with an event recorded. -/
def recording (event : Event) (engine : Engine) : Engine :=
  { engine with history := { engine.history with
      events := History.record engine.history.events event.name event.timestamp } }

theorem outcome_recordEvent (hfaults : e.history.faults = .none) (event : Event) :
    (recordEvent event).outcome e = (.ok (), e.recording event) := by
  rcases e with ⟨cache, ⟨events, reads, faults⟩, user, device, reporter, seedFromUserId⟩
  cases hfaults
  rfl

theorem outcome_report (fire : Fire) :
    (report fire).outcome e =
      if e.reporter.broken then (.error .reporter, e)
      else (.ok (), { e with
        reporter := { e.reporter with fires := e.reporter.fires ++ [fire] } }) := by
  rw [report, outcome_bind, outcome_get]
  dsimp only
  split <;> rfl

theorem ofExperiment_eq_fireOf (event : Event) (rule : Rule) (variant : Variant) :
    Fire.ofExperiment event.name ⟨rule.experimentId, rule.experimentGroupId, variant⟩
      event.timestamp = fireOf event rule variant := by
  rw [Fire.ofExperiment, fireOf, ClockTime.ofTimestamp]
  cases variant.type <;> rfl

theorem told_outcomeOf (rule : Rule) (variant : Variant) :
    Told rule variant (outcomeOf rule variant) := by
  rw [outcomeOf]
  cases htype : variant.type with
  | treatment => exact .treatment htype
  | holdout => exact .holdout htype

/-- What a rule that matched leads to, after it was recorded. -/
theorem outcome_settle_commit (event : Event) (rule : Rule) :
    (settle event rule .commit).outcome e =
      match (variantFor rule .commit).outcome e.cache with
      | (.error failure, cache) => (.ok (.failed failure.kind), { e with cache })
      | (.ok variant, cache) =>
          if e.reporter.broken then (.error .reporter, { e with cache })
          else (.ok (outcomeOf rule variant), { e with
            cache
            reporter := { e.reporter with
              fires := e.reporter.fires ++ [fireOf event rule variant] } }) := by
  rw [settle, outcome_bind, outcome_caught, onCache, outcome_on]
  rcases (variantFor rule .commit).outcome e.cache with ⟨failure | variant, cache⟩
  · rfl
  · dsimp only
    rw [if_pos rfl, ofExperiment_eq_fireOf]
    have hreport := outcome_report (e := { e with cache }) (fireOf event rule variant)
    by_cases hbroken : e.reporter.broken = true
    · rw [if_pos hbroken] at hreport
      rw [outcome_bind_error hreport, if_pos hbroken]
    · rw [if_neg hbroken] at hreport
      rw [outcome_bind_ok hreport, if_neg hbroken]
      rfl

/-- What is left of an evaluation once the user is loaded and the event recorded. -/
def deciding (event : Event) (rules : RuleSet) (user : User) (intent : Intent) :
    Attempt Engine Crash Outcome := do
  match ← firstMatch event user.attributes intent (candidates rules event) [] none with
  | .ok rule => settle event rule intent
  | .error (some miss) => return .noMatch miss
  | .error none => return .eventNotFound event.name

/-- An evaluation for a user who can be loaded. -/
theorem outcome_evaluate_of_load {user : User} (event : Event) (rules : RuleSet) (intent : Intent)
    (hload : currentUser.outcome e = (.ok user, f)) :
    (evaluate event rules intent).outcome e =
      (do
        if intent = .commit then recordEvent event
        deciding event rules user intent : Attempt Engine Crash Outcome).outcome f := by
  rw [evaluate, outcome_bind_ok (outcome_caught_eq hload)]
  dsimp only
  rw [deciding, candidates]
  cases rules.forEvent? event.name <;> rfl

theorem outcome_evaluate_loaded {user : User} (event : Event) (rules : RuleSet)
    (hload : currentUser.outcome e = (.ok user, f)) (hkept : f.history.faults = .none) :
    (evaluate event rules .commit).outcome e =
      (deciding event rules user .commit).outcome (f.recording event) := by
  rw [outcome_evaluate_of_load event rules .commit hload, if_pos rfl,
    outcome_bind_ok (outcome_recordEvent hkept event)]

/-- An evaluation ends where the user cannot be loaded. -/
theorem outcome_evaluate_unloaded {fault : PersistenceFault} (event : Event) (rules : RuleSet)
    (intent : Intent) (hload : currentUser.outcome e = (.error fault, f)) :
    (evaluate event rules intent).outcome e = (.ok (.failed .persistence), f) := by
  rw [evaluate, outcome_bind_ok (outcome_caught_eq hload)]
  rfl

/-! ## What is left of them -/

/-- Loading the user leaves no trace. -/
theorem SameSurroundings.traces (h : SameSurroundings e d) (event : Event) :
    Traces event [] [] 0 e d := by
  obtain ⟨hhistory, hdevice, hreporter⟩ := h
  refine ⟨?_, ?_, ?_, ?_⟩
  · rw [hhistory]
    rfl
  · rw [hhistory]
  · rw [hreporter, List.append_nil]
  · exact hdevice

theorem SameSurroundings.scene_eq (h : SameSurroundings e d) (event : Event) (user : User) :
    (d.recording event).scene user.attributes event.parameters event.timestamp =
      e.sceneOf event user := by
  obtain ⟨hhistory, hdevice, -⟩ := h
  rw [scene, sceneOf, scene, recording, hhistory, hdevice]

/-- Of the conditions the questions are left. -/
theorem traces_of_looked {event : Event} {n : Nat} (hsame : SameSurroundings e f)
    (hlooked : Looked n (f.recording event) d) : Traces event [event.name] [] n e d := by
  obtain ⟨hhistory, hdevice, hreporter⟩ := hsame
  obtain ⟨reads, rfl⟩ := hlooked
  refine ⟨?_, ?_, ?_, ?_⟩
  · rw [← hhistory]
    rfl
  · rw [← hhistory]
    rfl
  · rw [← hreporter, List.append_nil]
    rfl
  · rw [← hdevice]
    rfl

/-- One more name is recorded. -/
theorem Traces.recordingMatch {event : Event} {recorded : List String} {fires : List Fire}
    {n : Nat} (h : Traces event recorded fires n e d) (rule : Rule) :
    Traces event (recorded ++ [rule.occurrenceEvent]) fires n e
      (d.recordingMatch .commit rule event.timestamp) := by
  refine ⟨?_, h.faults, h.fires, h.device⟩
  rw [List.foldl_append, ← h.events]
  rfl

theorem Traces.setCache {event : Event} {recorded : List String} {fires : List Fire} {n : Nat}
    (h : Traces event recorded fires n e d) (cache : AssignmentCache) :
    Traces event recorded fires n e { d with cache } :=
  ⟨h.events, h.faults, h.fires, h.device⟩

/-- One fire is reported. -/
theorem Traces.reporting {event : Event} {recorded : List String} {n : Nat}
    (h : Traces event recorded [] n e d) (fire : Fire) :
    Traces event recorded [fire] n e { d with
      reporter := { d.reporter with fires := d.reporter.fires ++ [fire] } } := by
  refine ⟨h.events, h.faults, ?_, h.device⟩
  rw [h.fires, List.append_nil]

/-- What is assigned is confirmed, in the store and in memory. -/
theorem confirmed_of_variantFor {cache cache' : AssignmentCache} {rule : Rule} {variant : Variant}
    (hc : cache.Coherent)
    (h : (variantFor rule .commit).outcome cache = (.ok variant, cache')) :
    Confirmed rule.experimentId variant cache' ∧
      cache'.confirmedSnapshot.find? rule.experimentId = some variant :=
  ⟨confirmed_of_puts (assign_spec hc h).2.2, confirmedSnapshot_of_assign hc h⟩

/-! ## How it ends -/

section
variable {event : Event} {rules : RuleSet} {user : User} {missed : List Rule} {rule : Rule}

/-- A rule matched and its match is recorded: a variant is assigned, or not. -/
theorem committed_settle (hgets : Gets event rules e user missed rule)
    (hholds : judges event e user missed rule = .ok true)
    (hcoherent : (currentUser.outcome e).2.cache.Coherent)
    (hcache : f.cache = (currentUser.outcome e).2.cache)
    (hbroken : f.reporter.broken = e.reporter.broken)
    (htraces : Traces event [event.name, rule.occurrenceEvent] [] (missed.length + 1) e f) :
    Committed event rules e ((settle event rule .commit).outcome f).2
      ((settle event rule .commit).outcome f).1 := by
  rw [outcome_settle_commit, hcache, hbroken]
  rcases hassign : (variantFor rule .commit).outcome (currentUser.outcome e).2.cache
    with ⟨failure | variant, cache⟩
  · exact .unassigned hgets hholds hassign (htraces.setCache cache)
  · obtain ⟨hstored, hvisible⟩ := confirmed_of_variantFor hcoherent hassign
    dsimp only
    by_cases hdown : e.reporter.broken = true
    · rw [if_pos hdown]
      exact .unreported hgets hholds hassign hstored hvisible hdown (htraces.setCache cache)
    · rw [if_neg hdown]
      exact .assigned hgets hholds hassign hstored hvisible (told_outcomeOf rule variant)
        ((htraces.setCache cache).reporting _)

theorem cause_of_crash {crash : Crash} (h : judges event e user missed rule = .error crash) :
    crash = .device ∧ e.device.answers.entry missed.length = none ∨
      crash = .unrepresentableTime ∧ Scene.CountsTooFarBack event.timestamp := by
  rw [← Tape.head_drop]
  exact Scene.holds_error h

end

/-- **What comes of a committed evaluation** of an engine whose memory agrees with its store. -/
theorem evaluate_commit_spec (he : Consistent e) (hfaults : e.history.faults = .none)
    (event : Event) (rules : RuleSet) :
    Committed event rules e ((evaluate event rules .commit).outcome e).2
      ((evaluate event rules .commit).outcome e).1 := by
  have hsame := sameSurroundings_currentUser e
  rcases hload : currentUser.outcome e with ⟨fault | user, f⟩
  · rw [hload] at hsame
    rw [outcome_evaluate_unloaded event rules .commit hload]
    exact .unloaded (congrArg Prod.fst hload) (by rw [hload]) (hsame.traces event)
  · rw [hload] at hsame
    have hkept : f.history.faults = .none := by rw [hsame.history, hfaults]
    have hloaded : (currentUser.outcome e).1 = .ok user := congrArg Prod.fst hload
    obtain ⟨d, hlooked, hfirst⟩ := firstMatch_spec (e := f.recording event) hkept event
      user.attributes .commit (candidates rules event) none Scene.right_nil
    have htraces := traces_of_looked hsame hlooked
    have hcache : d.cache = (currentUser.outcome e).2.cache := by
      rw [hlooked.cache, hload]
      rfl
    -- To load the user changes nothing that the conditions look at.
    rw [hsame.scene_eq event user] at hfirst htraces
    rw [outcome_evaluate_loaded event rules hload hkept, deciding]
    rcases Scene.search_ends (e.sceneOf event user) (candidates rules event) with
      ⟨hmissed, hsearch⟩ | ⟨missed, rule, rest, hsplit, hbefore, hends⟩
    · rw [hsearch] at hfirst htraces
      rw [outcome_bind_ok hfirst, Option.or_none]
      have hends := Committed.unmatched hloaded hmissed hcache htraces
      rw [outcomeOfNone] at hends
      cases hmiss : missOf (candidates rules event) <;> rw [hmiss] at hends <;> exact hends
    · have hgets : Gets event rules e user missed rule := by
        refine ⟨hloaded, ⟨rest, ?_⟩, hbefore⟩
        rw [hsplit, List.append_assoc, List.singleton_append]
      rcases hends with ⟨hholds, hsearch⟩ | ⟨crash, hholds, hsearch⟩
      · rw [hsearch] at hfirst htraces
        rw [outcome_bind_ok hfirst]
        have hcoherent := (currentUser_spec he hload).1.cache
        refine committed_settle hgets hholds (by rwa [hload]) hcache ?_
          (htraces.recordingMatch rule)
        show d.reporter.broken = _
        rw [hlooked.reporter, ← hsame.reporter]
        rfl
      · rw [hsearch] at hfirst htraces
        rw [outcome_bind_error hfirst]
        exact .broken hgets hholds (cause_of_crash hholds) hcache htraces

/-- **A committed evaluation, end to end**: from every engine that can be reached, over a
history that does not fail, it ends in one of the ways listed by `Committed`. -/
theorem committed_evaluate (he : Reachable e) (hfaults : e.history.faults = .none) (event : Event)
    (rules : RuleSet) :
    Committed event rules e ((evaluate event rules .commit).outcome e).2
      ((evaluate event rules .commit).outcome e).1 :=
  evaluate_commit_spec he.consistent hfaults event rules

/-- A launch of the app. -/
def firstLaunch : Event := ⟨"launch", Timestamp.epoch, ∅⟩

/-- A rule that shows everyone the same. -/
def welcome : Rule := .unconditional "welcome" "plans" [.treatment "gold" 100 "gold"]

/-- The rules for a launch. -/
def welcomeRules : RuleSet := ⟨0, Dict.ofList [(firstLaunch.name, [welcome])]⟩

/-- An engine over an empty store, whose device may be broken. -/
def welcoming (broken : Bool) : Engine where
  cache := .ofStore (.ofDocuments ∅) (Tape.const default)
  history := .empty
  user := none
  device := ⟨Tape.const (if broken then none else some ∅), 0⟩
  reporter := ⟨[], false⟩
  seedFromUserId := false

theorem reachable_welcoming (broken : Bool) : Reachable (welcoming broken) :=
  .opened (welcoming broken)

/-- The first launch of a new user. -/
theorem committed_firstLaunch :
    Committed firstLaunch welcomeRules (welcoming false)
        ((evaluate firstLaunch welcomeRules .commit).outcome (welcoming false)).2
        ((evaluate firstLaunch welcomeRules .commit).outcome (welcoming false)).1 ∧
      ((evaluate firstLaunch welcomeRules .commit).outcome (welcoming false)).1 =
        .ok (.matched welcome ⟨"gold", .treatment, some "gold"⟩) :=
  ⟨committed_evaluate (reachable_welcoming false) rfl firstLaunch welcomeRules, rfl⟩

/-- **Not every evaluation has an outcome**: where the source of device attributes breaks
down the engine goes down with it, although the user is loaded and the only rule has no
condition.  The caller is told that the worker does not run, and nothing is reported or
assigned. -/
theorem evaluation_without_outcome :
    Reachable (welcoming true) ∧ (welcoming true).history.faults = .none ∧
      (currentUser.outcome (welcoming true)).1 = .ok .unknown ∧
      candidates welcomeRules firstLaunch = [welcome] ∧ welcome.condition = .ok none ∧
      ((evaluate firstLaunch welcomeRules .commit).outcome (welcoming true)).1 =
        .error .device ∧
      (((Dispatcher.start (welcoming true) welcomeRules).submit firstLaunch).work.outcomeFor 0 =
        .outcome (.failed .workerUnavailable)) :=
  ⟨reachable_welcoming true, rfl, rfl, rfl, rfl, rfl, rfl⟩

/-! ## Many evaluations -/

/-- What comes of some committed evaluations, one after the other, and the engine they leave. -/
def evaluateAll : List (Event × RuleSet) → Engine → List (Except Crash Outcome) × Engine
  | [], e => ([], e)
  | (event, rules) :: rest, e =>
      let (result, d) := (evaluate event rules .commit).outcome e
      let (results, f) := evaluateAll rest d
      (result :: results, f)

/-- The experiment in which the user was given a variant. -/
def givenIn? : Except Crash Outcome → Option ExperimentId
  | .ok (.matched rule _) => some rule.experimentId
  | .ok (.noMatch ⟨.holdout, experimentId⟩) => some experimentId
  | _ => none

theorem Told.givenIn?_eq {rule : Rule} {variant : Variant} {outcome : Outcome}
    (h : Told rule variant outcome) : givenIn? (.ok outcome) = some rule.experimentId := by
  cases h <;> rfl

theorem givenIn?_outcomeOfNone (event : Event) (rules : List Rule) :
    givenIn? (.ok (outcomeOfNone event rules)) = none := by
  rw [outcomeOfNone, missOf]
  cases rules.getLast? <;> rfl

/-- How often a match of a rule of some experiment is recorded. -/
def occurrences (engine : Engine) (experimentId : ExperimentId) : Nat :=
  (engine.history.times (Rule.occurrencePrefix ++ experimentId)).length

theorem length_recorded (recorded : List String) (events : Dict (List Timestamp)) (t : Timestamp)
    (name : String) :
    (((recorded.foldl (fun events name => History.record events name t) events).find? name).getD
      []).length = ((events.find? name).getD []).length + recorded.count name := by
  induction recorded generalizing events with
  | nil => rfl
  | cons first rest ih =>
      rw [List.foldl_cons, ih, History.record, Dict.find?_insert, List.count_cons]
      by_cases hname : first = name
      · rw [if_pos hname, if_pos (beq_iff_eq.mpr hname), hname, Option.getD_some,
          List.length_append, List.length_singleton]
        omega
      · rw [if_neg hname, if_neg (by simpa using hname)]
        rfl

/-- **The three places keep step**: in each experiment there was one fire for each variant
given, and no fewer matches were recorded. -/
structure InStep (results : List (Except Crash Outcome)) (e d : Engine) : Prop where
  fires : d.reporter.fires.map (·.experiment.id) =
    e.reporter.fires.map (·.experiment.id) ++ results.filterMap givenIn?
  occurrences : ∀ experimentId, e.occurrences experimentId +
    (results.filterMap givenIn?).count experimentId ≤ d.occurrences experimentId

theorem Traces.inStep {event : Event} {recorded : List String} {fires : List Fire} {n : Nat}
    {result : Except Crash Outcome} (h : Traces event recorded fires n e d)
    (hfires : fires.map (·.experiment.id) = (givenIn? result).toList)
    (hrecorded : ∀ experimentId ∈ givenIn? result,
      Rule.occurrencePrefix ++ experimentId ∈ recorded) : InStep [result] e d := by
  have hgiven : [result].filterMap givenIn? = (givenIn? result).toList := by
    cases hresult : givenIn? result <;> simp [hresult]
  constructor
  · rw [h.fires, List.map_append, hfires, hgiven]
  · intro experimentId
    rw [occurrences, occurrences, History.times, History.times, h.events, length_recorded, hgiven]
    cases hresult : givenIn? result with
    | none => exact Nat.add_le_add_left (Nat.zero_le _) _
    | some given =>
        refine Nat.add_le_add_left ?_ _
        rw [Option.toList_some, List.count_singleton]
        split
        · rename_i hsame
          have hmem := hrecorded given (hresult ▸ rfl)
          rw [beq_iff_eq.mp hsame] at hmem
          exact List.count_pos_iff.mpr hmem
        · exact Nat.zero_le _

theorem Committed.inStep {event : Event} {rules : RuleSet} {result : Except Crash Outcome}
    (h : Committed event rules e d result) :
    InStep [result] e d ∧ d.history.faults = e.history.faults := by
  cases h with
  | unloaded _ _ traces => exact ⟨traces.inStep rfl nofun, traces.faults⟩
  | unmatched _ _ _ traces =>
      have hnone := givenIn?_outcomeOfNone event (candidates rules event)
      refine ⟨traces.inStep (by rw [hnone]; rfl) ?_, traces.faults⟩
      rw [hnone]
      nofun
  | broken _ _ _ _ traces => exact ⟨traces.inStep rfl nofun, traces.faults⟩
  | unassigned _ _ _ traces => exact ⟨traces.inStep rfl nofun, traces.faults⟩
  | assigned _ _ _ _ _ told traces =>
      have hgiven := told.givenIn?_eq
      refine ⟨traces.inStep (by rw [hgiven]; rfl) ?_, traces.faults⟩
      rw [hgiven]
      rintro _ ⟨⟩
      exact List.mem_cons_of_mem _ (List.mem_singleton_self _)
  | unreported _ _ _ _ _ _ traces => exact ⟨traces.inStep rfl nofun, traces.faults⟩

theorem InStep.trans {first rest : List (Except Crash Outcome)} (hd : InStep first e d)
    (hf : InStep rest d f) : InStep (first ++ rest) e f := by
  constructor
  · rw [hf.fires, hd.fires, List.append_assoc, List.filterMap_append]
  · intro experimentId
    rw [List.filterMap_append, List.count_append]
    have hfirst := hd.occurrences experimentId
    have hrest := hf.occurrences experimentId
    omega

/-- **Every run of committed evaluations keeps history, outcomes and fires in step**,
whichever accesses to the store fail. -/
theorem inStep_evaluateAll (he : Consistent e) (hfaults : e.history.faults = .none)
    (run : List (Event × RuleSet)) :
    InStep (evaluateAll run e).1 e (evaluateAll run e).2 := by
  induction run generalizing e with
  | nil => exact ⟨(List.append_nil _).symm, fun _ => Nat.le_refl _⟩
  | cons asked rest ih =>
      obtain ⟨event, rules⟩ := asked
      obtain ⟨hfirst, hkept⟩ := (evaluate_commit_spec he hfaults event rules).inStep
      have hd := (composes_keepsUser.evaluate event rules .commit e he).consistent
      exact hfirst.trans (ih hd (hkept.trans hfaults))

end Engine
end Placement
