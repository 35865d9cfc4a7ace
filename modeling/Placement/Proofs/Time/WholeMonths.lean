import Mathlib.Order.Bounds.Defs
import Placement.Proofs.Time.Months
import Placement.Time.Timestamp
/-! # Whole months between two instants

An instant is so many months after another one if it is at the same time of day, in the month
that comes so many months later, and on the same day of that month, or on its last day if the
month is too short (`Timestamp.MonthsAfter`).

`Timestamp.wholeMonths` counts **the most months that can be added to the first instant without
passing the second one**.  It starts from the difference of the months on the calendar, which
is one too large at most: the day and the time of day decide only within the last month.
-/
namespace Placement.Timestamp
open Calendar
variable {start stop t u : Timestamp} {months : Nat}

/-- **The instant is so many months later.** -/
structure MonthsAfter (start : Timestamp) (months : Nat) (t : Timestamp) : Prop where
  month : monthNumber t.date = monthNumber start.date + months
  day : t.date.day = min start.date.day (monthLength t.date.year t.date.month)
  time : t.timeOfDay = start.timeOfDay

/-- So many months can be added without passing the end. -/
def Passes (start stop : Timestamp) (months : Nat) : Prop :=
  ∃ t, MonthsAfter start months t ∧ t ≤ stop

/-- The difference of the months on the calendar. -/
def monthsApart (start stop : Timestamp) : Int :=
  (stop.date.year - start.date.year) * 12 + stop.date.month - start.date.month

/-! ## Instants as dates and times of day -/

theorem nanosPerDay_eq : nanosPerDay = 86400000000000 := rfl

theorem ofNanos?_eq_some_iff {nanos : Int} : ofNanos? nanos = some t ↔ t.nanos = nanos := by
  rw [ofNanos?]
  constructor
  · intro h
    split at h
    · cases h
      rfl
    · cases h
  · rintro rfl
    rw [dif_pos t.inRange]

theorem isValid_date (t : Timestamp) : isValid t.date := isValid_dateOfDay _

theorem timeOfDay_bounds (t : Timestamp) : 0 ≤ t.timeOfDay ∧ t.timeOfDay < nanosPerDay := by
  rw [timeOfDay, nanosPerDay_eq]
  omega

/-- **An instant is a date and a time of day.** -/
theorem nanos_eq (t : Timestamp) :
    t.nanos = (dayNumber t.date - epochDay) * nanosPerDay + t.timeOfDay := by
  rw [date, dayNumber_dateOfDay, timeOfDay, nanosPerDay_eq]
  omega

theorem ofDate?_eq_some_iff {date : Date} {time : Int} (hdate : isValid date)
    (htime : 0 ≤ time ∧ time < nanosPerDay) :
    ofDate? date time = some t ↔ t.date = date ∧ t.timeOfDay = time := by
  rw [ofDate?, ofNanos?_eq_some_iff]
  rw [nanosPerDay_eq] at htime ⊢
  constructor
  · intro h
    have hday : t.nanos / nanosPerDay + epochDay = dayNumber date := by
      rw [nanosPerDay_eq]
      omega
    refine ⟨?_, ?_⟩
    · rw [Timestamp.date, hday, dateOfDay_dayNumber hdate]
    · rw [timeOfDay, nanosPerDay_eq]
      omega
  · rintro ⟨rfl, rfl⟩
    exact nanos_eq t

/-- Earlier months hold earlier instants. -/
theorem lt_of_monthNumber_lt (h : monthNumber t.date < monthNumber u.date) : t < u := by
  have hdays := dayNumber_lt_of_monthNumber_lt (isValid_date t) (isValid_date u) h
  have ht := nanos_eq t
  have hu := nanos_eq u
  have htime := timeOfDay_bounds t
  have htime' := timeOfDay_bounds u
  rw [nanosPerDay_eq] at ht hu htime htime'
  show t.nanos < u.nanos
  omega

theorem monthNumber_le_of_le (h : t ≤ u) : monthNumber t.date ≤ monthNumber u.date := by
  refine Int.not_lt.mp fun hlt => ?_
  have hless : u.nanos < t.nanos := lt_of_monthNumber_lt hlt
  exact absurd h (Int.not_le.mpr hless)

/-! ## The range of instants -/

/-- The number of the first month that can be represented. -/
def firstMonth : Int := -262143 * 12

/-- The number of the first month that cannot be represented any more. -/
def endMonth : Int := 262143 * 12

theorem minNanos_eq : minNanos = (monthStart firstMonth - epochDay) * nanosPerDay := by decide

theorem maxNanos_eq : maxNanos = (monthStart endMonth - epochDay) * nanosPerDay - 1 := by decide

/-- **A date has instants exactly if its month can be represented.** -/
theorem exists_date_iff {date : Date} {time : Int} (hdate : isValid date)
    (htime : 0 ≤ time ∧ time < nanosPerDay) :
    (∃ t : Timestamp, t.date = date ∧ t.timeOfDay = time) ↔
      firstMonth ≤ monthNumber date ∧ monthNumber date < endMonth := by
  have hbounds := dayNumber_bounds hdate
  have hmin := minNanos_eq
  have hmax := maxNanos_eq
  rw [nanosPerDay_eq] at hmin hmax htime
  constructor
  · rintro ⟨t, rfl, -⟩
    have ht := nanos_eq t
    have htime := timeOfDay_bounds t
    have hrange := t.inRange
    rw [nanosPerDay_eq] at ht htime
    constructor
    · refine Int.not_lt.mp fun hlt => ?_
      have hmonths := monthStart_mono (show monthNumber t.date + 1 ≤ firstMonth by omega)
      omega
    · refine Int.not_le.mp fun hge => ?_
      have hmonths := monthStart_mono hge
      omega
  · rintro ⟨hfrom, hto⟩
    have hlow := monthStart_mono hfrom
    have hhigh := monthStart_mono (show monthNumber date + 1 ≤ endMonth by omega)
    have hrange : minNanos ≤ (dayNumber date - epochDay) * 86400000000000 + time ∧
        (dayNumber date - epochDay) * 86400000000000 + time ≤ maxNanos := by
      omega
    refine ⟨⟨_, hrange⟩, (ofDate?_eq_some_iff hdate htime).mp ?_⟩
    rw [ofDate?, ofNanos?_eq_some_iff, nanosPerDay_eq]

theorem monthNumber_range (t : Timestamp) :
    firstMonth ≤ monthNumber t.date ∧ monthNumber t.date < endMonth :=
  (exists_date_iff (isValid_date t) (timeOfDay_bounds t)).mp ⟨t, rfl, rfl⟩

/-! ## Months later -/

/-- **To add months leads to the instant so many months later**, if it can be represented. -/
theorem addMonths?_eq_some_iff : start.addMonths? months = some t ↔ MonthsAfter start months t := by
  have hvalid := isValid_addMonths (isValid_date start) months
  rw [addMonths?, ofDate?_eq_some_iff hvalid (timeOfDay_bounds start)]
  constructor
  · rintro ⟨hdate, htime⟩
    refine ⟨?_, ?_, htime⟩
    · rw [hdate, monthNumber_addMonths]
    · rw [hdate, day_addMonths]
  · rintro ⟨hmonth, hday, htime⟩
    rw [← monthNumber_addMonths] at hmonth
    obtain ⟨hyear, hmonth⟩ := eq_of_monthNumber_eq (isValid_date t) hvalid hmonth
    rw [hyear, hmonth, ← day_addMonths] at hday
    exact ⟨Date.ext hyear hmonth hday, htime⟩

/-- The instant is there if its month is. -/
theorem exists_monthsAfter (h : monthNumber start.date + months < endMonth) :
    ∃ t, MonthsAfter start months t := by
  have hvalid := isValid_addMonths (isValid_date start) months
  have hmonth := monthNumber_addMonths start.date months
  have hfrom := (monthNumber_range start).1
  obtain ⟨t, ht⟩ := (exists_date_iff hvalid (timeOfDay_bounds start)).mpr (by omega)
  exact ⟨t, addMonths?_eq_some_iff.mp
    ((ofDate?_eq_some_iff hvalid (timeOfDay_bounds start)).mpr ht)⟩

theorem monthsAfter_zero (start : Timestamp) : MonthsAfter start 0 start := by
  have hday := (isValid_iff.mp (isValid_date start)).2
  exact ⟨(Int.add_zero _).symm, by omega, rfl⟩

theorem Passes.le (h : Passes start stop months) :
    (months : Int) ≤ monthNumber stop.date - monthNumber start.date := by
  obtain ⟨t, hafter, hle⟩ := h
  have hmonth := hafter.month
  have hmonths := monthNumber_le_of_le hle
  omega

/-- Before the month of the end there is no doubt. -/
theorem passes_of_lt (h : (months : Int) < monthNumber stop.date - monthNumber start.date) :
    Passes start stop months := by
  have hto := (monthNumber_range stop).2
  obtain ⟨t, hafter⟩ : ∃ t, MonthsAfter start months t := exists_monthsAfter (by omega)
  have hmonth := hafter.month
  exact ⟨t, hafter, Int.le_of_lt (lt_of_monthNumber_lt (by omega))⟩

theorem reaches_iff : start.reaches stop months ↔ Passes start stop months := by
  rw [reaches, Option.any_eq_true]
  constructor
  · rintro ⟨t, hadd, hle⟩
    exact ⟨t, addMonths?_eq_some_iff.mp hadd, of_decide_eq_true hle⟩
  · rintro ⟨t, hafter, hle⟩
    exact ⟨t, addMonths?_eq_some_iff.mpr hafter, decide_eq_true hle⟩

theorem Passes.mono {later : Timestamp} (h : Passes start stop months) (hlater : stop ≤ later) :
    Passes start later months := by
  obtain ⟨t, hafter, hle⟩ := h
  exact ⟨t, hafter, Int.le_trans hle hlater⟩

/-! ## Counting -/

theorem monthsApart_eq (start stop : Timestamp) :
    monthsApart start stop = monthNumber stop.date - monthNumber start.date := by
  have hstart := (isValid_iff.mp (isValid_date start)).1
  have hstop := (isValid_iff.mp (isValid_date stop)).1
  rw [monthsApart, monthNumber, monthNumber]
  omega

/-- The search goes down to the most months that do not pass the end. -/
theorem isGreatest_monthsUpTo (hzero : Passes start stop 0) (candidate : Nat) :
    IsGreatest {m | Passes start stop m ∧ m ≤ candidate} (monthsUpTo start stop candidate) := by
  induction candidate with
  | zero => exact ⟨⟨hzero, Nat.le_refl 0⟩, fun m hm => hm.2⟩
  | succ candidate ih =>
      rw [monthsUpTo]
      by_cases h : Passes start stop (candidate + 1)
      · rw [if_pos (reaches_iff.mpr h)]
        exact ⟨⟨h, Nat.le_refl _⟩, fun m hm => hm.2⟩
      · rw [if_neg (mt reaches_iff.mp h)]
        refine ⟨⟨ih.1.1, Nat.le_succ_of_le ih.1.2⟩, fun m hm => ih.2 ⟨hm.1, ?_⟩⟩
        have hne : m ≠ candidate + 1 := fun heq => h (heq ▸ hm.1)
        have hle := hm.2
        omega

theorem wholeMonths_of_le (h : stop ≤ start) : start.wholeMonths stop = 0 := by
  rw [wholeMonths, if_pos h]

theorem isGreatest_wholeMonths (h : start < stop) :
    IsGreatest {m | Passes start stop m} (start.wholeMonths stop) := by
  have hzero : Passes start stop 0 := ⟨start, monthsAfter_zero start, Int.le_of_lt h⟩
  have hgreatest := isGreatest_monthsUpTo hzero (monthsApart start stop).toNat
  have hcount : start.wholeMonths stop = monthsUpTo start stop (monthsApart start stop).toNat := by
    have hlater : ¬stop ≤ start := Int.not_le.mpr h
    rw [wholeMonths, if_neg hlater]
    rfl
  rw [hcount]
  refine ⟨hgreatest.1.1, fun m hm => hgreatest.2 ⟨hm, ?_⟩⟩
  have hle := Passes.le hm
  rw [monthsApart_eq]
  omega

/-- **The months that are counted are the most that do not pass the end**; their number is the
difference of the months on the calendar, or one less, and never falls when the end moves on. -/
theorem wholeMonths_most (start stop : Timestamp) :
    (stop ≤ start → start.wholeMonths stop = 0) ∧
      (start < stop →
        IsGreatest {m | ∃ t, MonthsAfter start m t ∧ t ≤ stop} (start.wholeMonths stop) ∧
        (monthsApart start stop = start.wholeMonths stop ∨
          monthsApart start stop = start.wholeMonths stop + 1)) ∧
      ∀ later, stop ≤ later → start.wholeMonths stop ≤ start.wholeMonths later := by
  refine ⟨wholeMonths_of_le, fun h => ⟨isGreatest_wholeMonths h, ?_⟩, fun later hlater => ?_⟩
  · have hgreatest := isGreatest_wholeMonths h
    have hle := Passes.le hgreatest.1
    rw [monthsApart_eq]
    -- One month less than the difference never passes the end.
    have hnear : ¬((start.wholeMonths stop + 1 : Nat) : Int) <
        monthNumber stop.date - monthNumber start.date :=
      fun hfar => Nat.not_succ_le_self _ (hgreatest.2 (passes_of_lt hfar))
    omega
  · by_cases h : stop ≤ start
    · rw [wholeMonths_of_le h]
      exact Nat.zero_le _
    · have hlt : start < stop := Int.not_le.mp h
      have hlt' : start < later := Int.lt_of_lt_of_le hlt hlater
      exact (isGreatest_wholeMonths hlt').2 ((isGreatest_wholeMonths hlt).1.mono hlater)

/-- Noon of the last day of January 2024. -/
def january31 : Timestamp := ⟨1706702400000000000, by decide⟩

/-- Noon of the last day but one of March 2024. -/
def march30 : Timestamp := ⟨1711800000000000000, by decide⟩

/-- From the end of January to the day before the end of March the calendar counts two months,
of which one is whole; in the other direction there is none. -/
theorem january31_to_march30 :
    (IsGreatest {m | ∃ t, MonthsAfter january31 m t ∧ t ≤ march30} 1 ∧
      monthsApart january31 march30 = 1 + 1) ∧
    march30.wholeMonths january31 = 0 ∧ january31.wholeMonths january31 ≤ 1 := by
  have hcount : january31.wholeMonths march30 = 1 := by decide +kernel
  have hmost := wholeMonths_most january31 march30
  have hgreatest := hmost.2.1 (by decide)
  refine ⟨⟨?_, by decide +kernel⟩, (wholeMonths_most march30 january31).1 (by decide), ?_⟩
  · rw [← hcount]
    exact hgreatest.1
  · rw [← hcount]
    exact (wholeMonths_most january31 january31).2.2 march30 (by decide)

end Placement.Timestamp
