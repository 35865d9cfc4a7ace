import Placement.Proofs.Engine.Committing
import Placement.Proofs.Property.Answers
/-! # Times that are too early

Computed properties calculate with two times that hosts are free to choose: the time of the
event, and times in the history.  Durations and differences of months stay in range for all of
them (`Timestamp.Calculable`).  **Only the start of a window may lie before the first instant**
(`Resolver.TooEarly`); to ask for it brings the worker down.

So evaluations of events at least thirty days after the first instant never end like this,
whatever the rules are and whatever fails (`endures_evaluate`), and for each earlier event there
are rules for which they do (`only_early_windows_crash`).
-/
namespace Placement
open Attempt

/-! ## Durations and differences of months -/

namespace Timestamp
open Calendar

/-- The number fits into 32 bits. -/
def Fits32 (n : Int) : Prop := -2147483648 ≤ n ∧ n < 2147483648

/-- **Nothing that is calculated from two instants leaves its range.** -/
structure Calculable (start stop : Timestamp) : Prop where
  /-- 64 bits hold the duration in milliseconds, with either sign. -/
  duration : (stop.nanos - start.nanos).natAbs ≤ 9223372036854775807 * 1000000
  years : Fits32 (stop.date.year - start.date.year)
  yearsInMonths : Fits32 ((stop.date.year - start.date.year) * 12)
  monthAdded : Fits32 ((stop.date.year - start.date.year) * 12 + stop.date.month)
  monthsApart : Fits32 (monthsApart start stop)
  /-- Every number of months that is tried leads to an instant. -/
  candidates : ∀ months : ℕ, (months : Int) ≤ start.monthsApart stop →
    ∃ t, start.addMonths? months = some t

theorem year_bounds (t : Timestamp) : -262143 ≤ t.date.year ∧ t.date.year < 262143 := by
  have hrange := monthNumber_range t
  have hmonth := (isValid_iff.mp (isValid_date t)).1
  rw [monthNumber, firstMonth, endMonth] at hrange
  omega

theorem calculable (start stop : Timestamp) : Calculable start stop := by
  have hstart := year_bounds start
  have hstop := year_bounds stop
  have hfirst := (isValid_iff.mp (isValid_date start)).1
  have hlast := (isValid_iff.mp (isValid_date stop)).1
  refine ⟨?_, ?_, ?_, ?_, ?_, ?_⟩
  · have hstart := start.inRange
    have hstop := stop.inRange
    rw [minNanos, maxNanos, nanosPerSecond] at hstart hstop
    omega
  · rw [Fits32]
    omega
  · rw [Fits32]
    omega
  · rw [Fits32]
    omega
  · rw [Fits32, Timestamp.monthsApart]
    omega
  · intro months hmonths
    have hend := (monthNumber_range stop).2
    rw [monthsApart_eq] at hmonths
    -- The month in question is not after the one of the later instant.
    have hmonth : monthNumber start.date + months < endMonth := by omega
    obtain ⟨t, ht⟩ := exists_monthsAfter hmonth
    exact ⟨t, addMonths?_eq_some_iff.mpr ht⟩

end Timestamp

/-! ## Single properties -/

namespace Resolver
variable {r : Resolver} {request : PropertyRequest} {α β : Type}

/-- **A window that begins too early brings the resolver down.** -/
theorem outcome_answer_of_tooEarly (hnew : request ∉ r.answered)
    (hearly : TooEarly r.now request) :
    (answer request).outcome r = (.error .unrepresentableTime, r) := by
  obtain ⟨window, hwindow, hbefore⟩ := hearly
  have hstart : r.now.minus? window = none := (minus?_eq_none_iff hwindow).mpr hbefore
  -- The window is calculated before the history is asked, so failures of the latter are no help.
  have hconsult : (consult request).outcome r = (.error .unrepresentableTime, r) := by
    rw [consult, outcome_bind_ok (outcome_get r), Property.window_iff.mpr hwindow]
    dsimp only
    rw [hstart]
    rfl
  rw [answer, outcome_bind_ok (outcome_get r), known?_eq_none_iff.mpr hnew]
  dsimp only
  rw [outcome_bind_error hconsult]

/-- Any other request is answered; a new one with what the history says. -/
theorem outcome_answer_of_not_tooEarly (h : request ∈ r.answered ∨ ¬TooEarly r.now request) :
    ∃ value t, (answer request).outcome r = (.ok value, t) ∧
      (request ∉ r.answered → ∃ n : Int64, value = .int n ∧
        r.history.Says r.now request n.toInt) := by
  by_cases hknown : request ∈ r.answered
  · obtain ⟨value, hvalue⟩ := mem_answered.mp hknown
    exact ⟨value, r, outcome_answer_of_known hvalue, fun hnew => absurd hknown hnew⟩
  · obtain ⟨n, hsaid, houtcome⟩ := outcome_answer_of_unknown hknown (h.resolve_left hknown)
    exact ⟨.int n, _, houtcome, fun _ => ⟨n, rfl, hsaid⟩⟩

/-- **The step comes to a value** if the time of the resolver is late enough, and keeps it. -/
def Answers (step : Attempt Resolver Crash α) : Prop :=
  ∀ r : Resolver, Late r.now → ∃ x t, step.outcome r = (.ok x, t) ∧ t.now = r.now

theorem answers_pure (x : α) : Answers (pure x : Attempt Resolver Crash α) :=
  fun r _ => ⟨x, r, rfl, rfl⟩

theorem Answers.bind {step : Attempt Resolver Crash α} {next : α → Attempt Resolver Crash β}
    (hstep : Answers step) (hnext : ∀ x, Answers (next x)) : Answers (step >>= next) := by
  intro r hlate
  obtain ⟨x, t, hx, ht⟩ := hstep r hlate
  obtain ⟨y, u, hy, hu⟩ := hnext x t (ht ▸ hlate)
  exact ⟨y, u, (outcome_bind_ok hx).trans hy, hu.trans ht⟩

theorem composes_answers : Composes fun step => Answers step where
  pure := answers_pure
  bind := Answers.bind
  answer request := by
    intro r hlate
    obtain ⟨value, t, houtcome, hvisited, -⟩ := visited_answer request hlate
    exact ⟨value, t, houtcome, hvisited.now⟩

end Resolver

/-! ## Late events -/

namespace Engine
open Resolver
variable {ε α β : Type} {event : Event} {e f : Engine}

/-- **Whatever else brings the engine down, times do not.** -/
def Endures (step : Attempt Engine Crash α) : Prop :=
  ∀ e, (step.outcome e).1 ≠ .error .unrepresentableTime

theorem endures_pure (x : α) : Endures (pure x : Attempt Engine Crash α) := nofun

theorem Endures.bind {step : Attempt Engine Crash α} {next : α → Attempt Engine Crash β}
    (hstep : Endures step) (hnext : ∀ x, Endures (next x)) : Endures (step >>= next) := by
  intro e hcrash
  have hfirst := hstep e
  rcases h : step.outcome e with ⟨crash | x, d⟩
  · rw [outcome_bind_error h] at hcrash
    cases hcrash
    rw [h] at hfirst
    exact hfirst rfl
  · rw [outcome_bind_ok h] at hcrash
    exact hnext x d hcrash

theorem endures_caught (step : Attempt Engine ε α) :
    Endures (step.caught : Attempt Engine Crash (Except ε α)) := nofun

theorem endures_conditionHolds (rule : Rule) (user parameters : Attributes) {now : Timestamp}
    (hlate : Late now) (resolved : Resolved) :
    Endures (conditionHolds rule user parameters now resolved) := by
  intro e hcrash
  cases hdevice : e.device.answers.head with
  | none =>
      -- A device that shows nothing brings the engine down as well, but not for a time.
      rw [outcome_conditionHolds_none hdevice] at hcrash
      cases hcrash
  | some shown =>
      obtain ⟨holds, r, hanswered, -⟩ :=
        composes_answers.conditionIn rule user shown parameters ⟨e.history, now, resolved⟩ hlate
      rw [outcome_conditionHolds hdevice, hanswered] at hcrash
      cases hcrash

theorem endures_judge (rule : Rule) (holds : Bool) (intent : Intent) (t : Timestamp) :
    Endures (onHistory (rule.judge holds intent t)) := by
  cases holds with
  | false => nofun
  | true => cases intent <;> nofun

theorem endures_firstMatch (hlate : Late event.timestamp) (user : Attributes) (intent : Intent)
    (rules : List Rule) (resolved : Resolved) (last : Option NoMatch) :
    Endures (firstMatch event user intent rules resolved last) := by
  induction rules generalizing resolved last with
  | nil => exact endures_pure _
  | cons rule rest ih =>
      refine (endures_conditionHolds rule user event.parameters hlate resolved).bind ?_
      rintro ⟨holds, resolved'⟩
      refine (endures_judge rule holds intent event.timestamp).bind ?_
      rintro (miss | matched)
      · exact ih resolved' (some miss)
      · exact endures_pure _

theorem endures_report (fire : Fire) : Endures (report fire) := by
  intro e
  rw [outcome_report]
  split <;> nofun

theorem endures_settle (rule : Rule) (intent : Intent) : Endures (settle event rule intent) := by
  refine (endures_caught _).bind ?_
  rintro (failure | variant)
  · exact endures_pure _
  · cases intent with
    | commit => exact (endures_report _).bind fun _ => endures_pure _
    | preview => exact endures_pure _

theorem endures_deciding (hlate : Late event.timestamp) (rules : RuleSet) (user : User)
    (intent : Intent) : Endures (deciding event rules user intent) := by
  refine (endures_firstMatch hlate user.attributes intent _ [] none).bind ?_
  rintro ((_ | miss) | rule)
  · exact endures_pure _
  · exact endures_pure _
  · exact endures_settle rule intent

/-- Recording an event comes to an end, whether the history fails or not. -/
theorem outcome_recordEvent_eq (event : Event) (e : Engine) :
    ∃ history, (recordEvent event).outcome e = (.ok (), { e with history }) := by
  rw [recordEvent, outcome_bind, outcome_caught]
  exact ⟨_, rfl⟩

/-- **Late events do not crash for a time.** -/
theorem endures_evaluate (hlate : Late event.timestamp) (rules : RuleSet) (intent : Intent) :
    Endures (evaluate event rules intent) := by
  intro e
  rcases hload : currentUser.outcome e with ⟨fault | user, f⟩
  · rw [outcome_evaluate_unloaded event rules intent hload]
    nofun
  · rw [outcome_evaluate_of_load event rules intent hload]
    cases intent with
    | commit =>
        obtain ⟨history, hrecorded⟩ := outcome_recordEvent_eq event f
        rw [if_pos rfl, outcome_bind_ok hrecorded]
        exact endures_deciding hlate rules user .commit _
    | preview => exact endures_deciding hlate rules user .preview f

/-! ## Early events -/

/-- How often the event happened within the month. -/
def withinMonth (eventName : String) : PropertyRequest := ⟨.placementsInMonth, eventName⟩

/-- A rule that shows this number among the device attributes. -/
def monthly (eventName : String) : Rule :=
  (Rule.unconditional "monthly" "plans" []).withRequest (withinMonth eventName)

/-- The rules for an event that consist of this one. -/
def monthlyRules (eventName : String) : RuleSet :=
  ⟨0, Dict.ofList [(eventName, [monthly eventName])]⟩

theorem tooEarly_withinMonth {now : Timestamp} (h : ¬Late now) (eventName : String) :
    TooEarly now (withinMonth eventName) := by
  refine ⟨_, .month, ?_⟩
  rw [Late, Timestamp.nanosPerDay, Timestamp.nanosPerSecond] at h
  omega

theorem candidates_monthlyRules (event : Event) :
    candidates (monthlyRules event.name) event = [monthly event.name] := by
  rw [candidates, RuleSet.forEvent?]
  show (Entries.find? event.name [(event.name, [monthly event.name])]).getD [] = _
  rw [Entries.find?_cons, if_pos rfl]
  rfl

/-- The condition of the rule brings the engine down. -/
theorem outcome_monthly_early {shown : Attributes} (hearly : ¬Late event.timestamp)
    (hup : e.device.answers.head = some shown) (user : Attributes) :
    ∃ f, (conditionHolds (monthly event.name) user event.parameters event.timestamp []).outcome e =
      (.error .unrepresentableTime, f) := by
  have hanswer : (Resolver.answer (withinMonth event.name)).outcome
      ⟨e.history, event.timestamp, []⟩ = (.error .unrepresentableTime, _) :=
    outcome_answer_of_tooEarly (Finset.notMem_empty _) (tooEarly_withinMonth hearly event.name)
  have hattributes : (Resolver.attributes (monthly event.name).requests).outcome
      ⟨e.history, event.timestamp, []⟩ = (.error .unrepresentableTime, _) :=
    outcome_bind_error (outcome_bind_error hanswer)
  rw [outcome_conditionHolds hup, conditionIn, outcome_bind_error hattributes]
  exact ⟨_, rfl⟩

theorem outcome_deciding_early {shown : Attributes} (hearly : ¬Late event.timestamp)
    (hup : e.device.answers.head = some shown) (user : User) (intent : Intent) :
    ((deciding event (monthlyRules event.name) user intent).outcome e).1 =
      .error .unrepresentableTime := by
  obtain ⟨f, hcondition⟩ := outcome_monthly_early hearly hup user.attributes
  have hfirst : (firstMatch event user.attributes intent [monthly event.name] [] none).outcome e =
      (.error .unrepresentableTime, f) := outcome_bind_error hcondition
  rw [deciding, candidates_monthlyRules, outcome_bind_error hfirst]

theorem outcome_evaluate_early {user : User} {shown : Attributes}
    (hearly : ¬Late event.timestamp) (hload : (currentUser.outcome e).1 = .ok user)
    (hup : e.device.answers.head = some shown) (intent : Intent) :
    ((evaluate event (monthlyRules event.name) intent).outcome e).1 =
      .error .unrepresentableTime := by
  have hdevice := (sameSurroundings_currentUser e).device
  rw [outcome_evaluate_of_load _ _ _ (outcome_eq_of_result hload)]
  cases intent with
  | commit =>
      obtain ⟨history, hrecorded⟩ := outcome_recordEvent_eq event (currentUser.outcome e).2
      rw [if_pos rfl, outcome_bind_ok hrecorded]
      exact outcome_deciding_early hearly (hdevice ▸ hup) user .commit
  | preview => exact outcome_deciding_early hearly (hdevice ▸ hup) user .preview

/-- **The only times that crash are early starts of windows.**  All else that is calculated from
two instants stays in range.  A property crashes exactly if it is asked for the first time and
its window begins too early; otherwise it has its answer.  Events at least thirty days after the
first instant do not crash for a time; each earlier one does for some rules, if the user can be
loaded and the device answers. -/
theorem only_early_windows_crash (start stop : Timestamp) (r : Resolver)
    (request : PropertyRequest) (event : Event) :
    start.Calculable stop ∧
    ((request ∉ r.answered ∧ TooEarly r.now request →
        (answer request).outcome r = (.error .unrepresentableTime, r)) ∧
      (¬(request ∉ r.answered ∧ TooEarly r.now request) →
        ∃ value t, (answer request).outcome r = (.ok value, t) ∧
          (request ∉ r.answered → ∃ n : Int64, value = .int n ∧
            r.history.Says r.now request n.toInt))) ∧
    (Timestamp.minNanos + 30 * Timestamp.nanosPerDay ≤ event.timestamp.nanos →
      ∀ (e : Engine) (rules : RuleSet) (intent : Intent),
        ((evaluate event rules intent).outcome e).1 ≠ .error .unrepresentableTime) ∧
    (event.timestamp.nanos < Timestamp.minNanos + 30 * Timestamp.nanosPerDay →
      ∀ (e : Engine) (user : User) (shown : Attributes) (intent : Intent),
        (currentUser.outcome e).1 = .ok user → e.device.answers.head = some shown → ∃ rules,
          ((evaluate event rules intent).outcome e).1 = .error .unrepresentableTime) := by
  refine ⟨start.calculable stop, ⟨?_, ?_⟩, ?_, ?_⟩
  · rintro ⟨hnew, hearly⟩
    exact outcome_answer_of_tooEarly hnew hearly
  · intro h
    exact outcome_answer_of_not_tooEarly (not_and_or.mp h |>.imp_left not_not.mp)
  · intro hlate e rules intent
    exact endures_evaluate hlate rules intent e
  · intro hearly e user shown intent hload hup
    exact ⟨_, outcome_evaluate_early (Int.not_le.mpr hearly) hload hup intent⟩

/-- A launch at the first instant. -/
def earliestLaunch : Event := { firstLaunch with timestamp := .first }

/-- **A launch at the first instant takes the worker down**, and the caller after it is told that
the worker does not run; a launch in our time does not crash for its time. -/
theorem earliestLaunch_crashes :
    (∃ rules, ((evaluate earliestLaunch rules .commit).outcome (welcoming false)).1 =
      .error .unrepresentableTime) ∧
    ((Resolver.answer (withinMonth "launch")).outcome (.new .empty .first)).1 =
      .error .unrepresentableTime ∧
    ((((Dispatcher.start (welcoming false) (monthlyRules earliestLaunch.name)).submit
      earliestLaunch).work.submit firstLaunch).work.outcomeFor 1 =
        .outcome (.failed .workerUnavailable)) ∧
    ((evaluate firstLaunch welcomeRules .commit).outcome (welcoming false)).1 ≠
      .error .unrepresentableTime := by
  have hearly : TooEarly .first (withinMonth "launch") := ⟨_, .month, by decide⟩
  obtain ⟨-, ⟨hcrash, -⟩, -, hcrashes⟩ := only_early_windows_crash .first .first
    (.new .empty .first) (withinMonth "launch") earliestLaunch
  obtain ⟨-, -, hendures, -⟩ := only_early_windows_crash .first .first
    (.new .empty .first) (withinMonth "launch") firstLaunch
  refine ⟨?_, congrArg Prod.fst (hcrash ⟨Finset.notMem_empty _, hearly⟩), rfl, ?_⟩
  · exact hcrashes (by decide) (welcoming false) .unknown ∅ .commit rfl rfl
  · exact hendures (by decide) _ _ _

end Engine
end Placement
