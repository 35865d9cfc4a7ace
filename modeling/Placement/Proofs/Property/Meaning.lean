import Mathlib.Order.Bounds.Defs
import Placement.Proofs.Time.WholeMonths
import Placement.Property.Resolver
/-! # What computed properties mean

A property tells how many whole units have passed since the latest record of an event
(`Property.Passed`), or how many records there are, most of them within a window
(`Property.Window`).  From this follows **what a history says to a request** as of a time
(`History.Says`), which does not mention how the answer is worked out.

The program asks the history for the latest record or for a count, and calculates.  It comes to
what is meant here: the units (`Property.measure_spec`), the windows (`Property.window_iff`) and
the largest count (`Resolver.ofCount_eq`).
-/
namespace Placement

namespace Property
variable {property : Property} {last now : Timestamp} {window : Int} {n : Nat}

/-- **So many whole units of the property have passed** from one time to another. -/
inductive Passed (last now : Timestamp) : Property → Nat → Prop
  | minutes {n : Nat} (h : last.nanos + n * (60 * 1000000000) ≤ now.nanos) :
      Passed last now .minutesSince n
  | hours {n : Nat} (h : last.nanos + n * (60 * 60 * 1000000000) ≤ now.nanos) :
      Passed last now .hoursSince n
  | days {n : Nat} (h : last.nanos + n * (24 * 60 * 60 * 1000000000) ≤ now.nanos) :
      Passed last now .daysSince n
  | months {n : Nat} {t : Timestamp} (hafter : Timestamp.MonthsAfter last n t) (h : t ≤ now) :
      Passed last now .monthsSince n

/-- **The property counts within a window** of so many nanoseconds. -/
inductive Window : Property → Int → Prop
  | hour : Window .placementsInHour (60 * 60 * 1000000000)
  | day : Window .placementsInDay (24 * 60 * 60 * 1000000000)
  | week : Window .placementsInWeek (7 * 24 * 60 * 60 * 1000000000)
  | month : Window .placementsInMonth (30 * 24 * 60 * 60 * 1000000000)

/-- What the history is asked for. -/
def access : Property → HistoryAccess
  | .minutesSince | .hoursSince | .daysSince | .monthsSince => .mostRecent
  | .placementsInHour | .placementsInDay | .placementsInWeek | .placementsInMonth
  | .placementsSinceInstall => .count

end Property

/-- **The records of a name**: when its events happened. -/
inductive History.Records (h : History) (name : String) : List Timestamp → Prop
  | none (hnone : h.events.find? name = .none) : Records h name []
  | some {times : List Timestamp} (hsome : h.events.find? name = .some times) :
      Records h name times

/-- **What a history says to a request**, as of a time: how many whole units ago the latest
record is, `0` if it is still to come or if there is none; or how many records there are, within
the window of the property if it has one, but no more than 64 bits hold.  A history that fails
says `0`. -/
inductive History.Says (h : History) (now : Timestamp) (request : PropertyRequest) : Int → Prop
  | failed (hfault : h.faults.head request.property.access ≠ none) : Says h now request 0
  | never (hcalm : h.faults.head .mostRecent = none)
      (hsince : request.property.access = .mostRecent)
      (hnever : h.Records request.eventName []) : Says h now request 0
  | ahead {times : List Timestamp} {last : Timestamp} (hcalm : h.faults.head .mostRecent = none)
      (hsince : request.property.access = .mostRecent)
      (htimes : h.Records request.eventName times) (hlast : IsGreatest {t | t ∈ times} last)
      (hahead : now < last) : Says h now request 0
  | last {times : List Timestamp} {last : Timestamp} {n : Nat}
      (hcalm : h.faults.head .mostRecent = none)
      (htimes : h.Records request.eventName times) (hlast : IsGreatest {t | t ∈ times} last)
      (hmost : IsGreatest {n | request.property.Passed last now n} n) : Says h now request n
  | within {times : List Timestamp} {window : Int} (hcalm : h.faults.head .count = none)
      (htimes : h.Records request.eventName times)
      (hwindow : request.property.Window window) :
      Says h now request (min (times.countP fun t =>
        decide (now.nanos - window ≤ t.nanos ∧ t.nanos ≤ now.nanos)) 9223372036854775807)
  | ever {times : List Timestamp} (hcalm : h.faults.head .count = none)
      (htimes : h.Records request.eventName times)
      (hever : request.property = .placementsSinceInstall) :
      Says h now request
        (min (times.countP fun t => decide (t.nanos ≤ now.nanos)) 9223372036854775807)

namespace History
variable {h : History} {access : HistoryAccess}

theorem records_times (h : History) (name : String) : h.Records name (h.times name) := by
  rw [times]
  cases hfound : h.events.find? name with
  | none => exact .none hfound
  | some times => exact .some hfound

theorem fault?_eq_none_iff : h.fault? access = none ↔ h.faults.head access = none :=
  Option.map_eq_none_iff

end History

/-! ## Units -/

namespace Property
variable {property : Property} {last now : Timestamp} {window : Int} {n : Nat}

/-- The quotient is the most units that fit. -/
theorem elapsed_spec {unit : Int} (hunit : 0 < unit) (h : last ≤ now) :
    ∃ n : Nat, elapsed unit now last = n ∧
      IsGreatest {n : Nat | last.nanos + n * unit ≤ now.nanos} n := by
  have hle : last.nanos ≤ now.nanos := h
  have hmax : max (now.nanos - last.nanos) 0 = now.nanos - last.nanos := by omega
  have hquotient : 0 ≤ (now.nanos - last.nanos) / unit :=
    Int.ediv_nonneg (by omega) (Int.le_of_lt hunit)
  refine ⟨((now.nanos - last.nanos) / unit).toNat, ?_, ?_, fun m hm => ?_⟩
  · rw [elapsed, hmax, Int.toNat_of_nonneg hquotient]
  · have hfits := Int.ediv_mul_le (now.nanos - last.nanos) (Int.ne_of_gt hunit)
    show last.nanos + (((now.nanos - last.nanos) / unit).toNat : Int) * unit ≤ now.nanos
    rw [Int.toNat_of_nonneg hquotient]
    omega
  · have hm : last.nanos + m * unit ≤ now.nanos := hm
    have hle : (m : Int) ≤ (now.nanos - last.nanos) / unit :=
      (Int.le_ediv_iff_mul_le hunit).mpr (by omega)
    omega

/-- Units of one length are measured by the quotient. -/
theorem isGreatest_elapsed {unit : Int} (hunit : 0 < unit) (h : last ≤ now)
    (hpassed : ∀ n : Nat, property.Passed last now n ↔ last.nanos + n * unit ≤ now.nanos) :
    ∃ n : Nat, elapsed unit now last = n ∧ IsGreatest {n | property.Passed last now n} n := by
  simp only [hpassed]
  exact elapsed_spec hunit h

theorem elapsed_of_lt {unit : Int} (h : now < last) : elapsed unit now last = 0 := by
  have hlt : now.nanos < last.nanos := h
  have hmax : max (now.nanos - last.nanos) 0 = 0 := by omega
  rw [elapsed, hmax, Int.zero_ediv]

theorem passed_minutes_iff :
    Passed last now .minutesSince n ↔ last.nanos + n * minute ≤ now.nanos := by
  refine ⟨fun h => ?_, .minutes⟩
  cases h
  assumption

theorem passed_hours_iff :
    Passed last now .hoursSince n ↔ last.nanos + n * (60 * minute) ≤ now.nanos := by
  refine ⟨fun h => ?_, .hours⟩
  cases h
  assumption

theorem passed_days_iff :
    Passed last now .daysSince n ↔ last.nanos + n * Timestamp.nanosPerDay ≤ now.nanos := by
  refine ⟨fun h => ?_, .days⟩
  cases h
  assumption

/-- From an instant on there are as many whole months as can be added to it. -/
theorem wholeMonths_spec (h : last ≤ now) :
    IsGreatest {n | Timestamp.Passes last now n} (last.wholeMonths now) := by
  by_cases hlt : last < now
  · exact Timestamp.isGreatest_wholeMonths hlt
  · have hge : now ≤ last := Int.not_lt.mp hlt
    rw [Timestamp.wholeMonths_of_le hge]
    refine ⟨⟨last, Timestamp.monthsAfter_zero last, h⟩, fun m hm => ?_⟩
    have hmonths := Timestamp.Passes.le hm
    have hback := Timestamp.monthNumber_le_of_le hge
    omega

/-- **What is measured are whole units**, and nothing before the record. -/
theorem measure_spec {measure : Timestamp → Timestamp → Int}
    (hquestion : property.question = .since measure) (last now : Timestamp) :
    now < last ∧ measure now last = 0 ∨
      ∃ n : Nat, measure now last = n ∧ IsGreatest {n | property.Passed last now n} n := by
  by_cases hahead : now < last
  · refine .inl ⟨hahead, ?_⟩
    cases property <;> cases hquestion
    · exact elapsed_of_lt hahead
    · exact elapsed_of_lt hahead
    · exact elapsed_of_lt hahead
    · exact congrArg Nat.cast (Timestamp.wholeMonths_of_le (Int.le_of_lt hahead))
  · have hle : last ≤ now := Int.not_lt.mp hahead
    right
    cases property <;> cases hquestion
    · exact isGreatest_elapsed (by decide) hle fun n => passed_minutes_iff
    · exact isGreatest_elapsed (by decide) hle fun n => passed_hours_iff
    · exact isGreatest_elapsed (by decide) hle fun n => passed_days_iff
    · obtain ⟨⟨t, hafter, ht⟩, hmost⟩ := wholeMonths_spec hle
      refine ⟨_, rfl, .months hafter ht, fun m hm => ?_⟩
      cases hm with
      | months hafter ht => exact hmost ⟨_, hafter, ht⟩

theorem access_of_since {measure : Timestamp → Timestamp → Int}
    (hquestion : property.question = .since measure) : property.access = .mostRecent := by
  cases property <;> cases hquestion <;> rfl

/-! ## Windows -/

/-- **The windows are those of the program.** -/
theorem window_iff : property.question = .within window ↔ property.Window window := by
  constructor
  · intro h
    cases property <;> cases h
    · exact .hour
    · exact .day
    · exact .week
    · exact .month
  · rintro (_ | _ | _ | _) <;> rfl

theorem Window.access_eq (h : property.Window window) : property.access = .count := by
  cases h <;> rfl

theorem Window.bounds (h : property.Window window) :
    0 ≤ window ∧ window ≤ 30 * Timestamp.nanosPerDay := by
  cases h <;> decide

theorem eq_of_ever (hquestion : property.question = .ever) :
    property = .placementsSinceInstall := by
  cases property <;> cases hquestion
  rfl

end Property

namespace Resolver
variable {r : Resolver} {now : Timestamp} {request : PropertyRequest}

/-- **The window of the request begins before the first instant.** -/
def TooEarly (now : Timestamp) (request : PropertyRequest) : Prop :=
  ∃ window, request.property.Window window ∧ now.nanos - window < Timestamp.minNanos

/-- The longest window fits before the time. -/
def Late (now : Timestamp) : Prop := Timestamp.minNanos + 30 * Timestamp.nanosPerDay ≤ now.nanos

theorem not_tooEarly_of_late (hlate : Late now) : ¬TooEarly now request := by
  rintro ⟨window, hwindow, hearly⟩
  have hbounds := hwindow.bounds
  rw [Late] at hlate
  omega

/-- **A window has a start unless it begins too early.** -/
theorem minus?_of_not_tooEarly (h : ¬TooEarly now request) {window : Int}
    (hwindow : request.property.Window window) :
    ∃ start, now.minus? window = some start ∧ start.nanos = now.nanos - window := by
  have hbounds := hwindow.bounds
  have hrange := now.inRange
  have hfrom : Timestamp.minNanos ≤ now.nanos - window :=
    Int.not_lt.mp fun hearly => h ⟨window, hwindow, hearly⟩
  refine ⟨⟨now.nanos - window, hfrom, by omega⟩, ?_, rfl⟩
  rw [Timestamp.minus?, Timestamp.ofNanos?_eq_some_iff]

theorem minus?_eq_none_iff {window : Int} (hwindow : request.property.Window window) :
    now.minus? window = none ↔ now.nanos - window < Timestamp.minNanos := by
  have hbounds := hwindow.bounds
  have hrange := now.inRange
  rw [Timestamp.minus?, Timestamp.ofNanos?]
  split
  · rename_i hinside
    refine ⟨fun hnone => ?_, fun hearly => absurd hearly (Int.not_lt.mpr hinside.1)⟩
    cases hnone
  · rename_i houtside
    refine ⟨fun _ => ?_, fun _ => rfl⟩
    omega

/-- The largest count is the largest number of 64 bits. -/
theorem ofCount_eq (count : Nat) : ofCount count = min (count : Int) 9223372036854775807 := rfl

end Resolver
end Placement
