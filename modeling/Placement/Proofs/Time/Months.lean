import Placement.Time.Calendar
/-! # The months of the calendar

Every month has a number, and they follow on one another without gaps: the first day of the
next month comes right after the last day of a month (`monthStart_succ`).  So **a day is the
start of its month and how far it is into the month** (`dayNumber_eq`), and of two days in
different months the one in the earlier month comes first.

From this follows that numbers and dates stand for one another: `dateOfDay` finds the only
date that has a number (`dayNumber_dateOfDay`, `dateOfDay_dayNumber`).
-/
namespace Placement.Calendar
variable {date other : Date} {i j : Int} {month : Nat}

/-- **The number of a month**: months are counted from January of the year `0`. -/
def monthNumber (date : Date) : Int := date.year * 12 + (date.month - 1 : Nat)

/-- The first day of a month. -/
def firstOf (i : Int) : Date := ⟨i / 12, (i % 12).toNat + 1, 1⟩

/-- The number of the first day of a month. -/
def monthStart (i : Int) : Int := dayNumber (firstOf i)

/-- How many days a month has. -/
def lengthOf (i : Int) : Nat := monthLength (firstOf i).year (firstOf i).month

/-! ## Months and years -/

theorem isValid_iff :
    isValid date ↔ (1 ≤ date.month ∧ date.month ≤ 12) ∧
      1 ≤ date.day ∧ date.day ≤ monthLength date.year date.month := by
  rw [isValid, Bool.and_eq_true, Bool.and_eq_true, Bool.and_eq_true, decide_eq_true_eq,
    decide_eq_true_eq, decide_eq_true_eq, decide_eq_true_eq, and_assoc (c := _ ≤ monthLength _ _)]

theorem le_monthLength (year : Int) (month : Nat) : 28 ≤ monthLength year month := by
  unfold monthLength
  split
  · split <;> decide
  all_goals decide

theorem daysBeforeMonth_succ (year : Int) (h : 1 ≤ month) :
    daysBeforeMonth year (month + 1) =
      daysBeforeMonth year month + monthLength year month := by
  obtain ⟨m, rfl⟩ := Nat.exists_eq_add_of_le' h
  rw [daysBeforeMonth, daysBeforeMonth, Nat.add_sub_cancel, Nat.add_sub_cancel, List.range_succ,
    List.foldl_append]
  rfl

theorem daysBeforeMonth_one (year : Int) : daysBeforeMonth year 1 = 0 := rfl

/-- **Twelve months are a year**: 365 days, and one more if it is a leap year. -/
theorem dayOfYear_succ (year : Int) :
    dayOfYear (year + 1) = dayOfYear year + daysBeforeMonth year 13 := by
  have hleap : isLeap year = true ↔ year % 4 = 0 ∧ (year % 100 ≠ 0 ∨ year % 400 = 0) := by
    simp [isLeap]
  have hdays : daysBeforeMonth year 13 = 365 + (if isLeap year then 1 else 0) := by
    show 31 + (if isLeap year then 29 else 28) + 31 + 30 + 31 + 30 + 31 + 31 + 30 + 31 + 30 + 31 = _
    split <;> rfl
  rw [hdays, dayOfYear, dayOfYear]
  split
  · rename_i h
    rw [hleap] at h
    omega
  · rename_i h
    rw [hleap] at h
    omega

/-! ## One month after the other -/

theorem firstOf_succ_of_lt (h : i % 12 < 11) :
    firstOf (i + 1) = ⟨(firstOf i).year, (firstOf i).month + 1, 1⟩ := by
  have hyear : (i + 1) / 12 = i / 12 := by omega
  have hmonth : ((i + 1) % 12).toNat = (i % 12).toNat + 1 := by omega
  rw [firstOf, hyear, hmonth]
  rfl

theorem firstOf_succ_of_eq (h : i % 12 = 11) :
    firstOf i = ⟨i / 12, 12, 1⟩ ∧ firstOf (i + 1) = ⟨i / 12 + 1, 1, 1⟩ := by
  have hyear : (i + 1) / 12 = i / 12 + 1 := by omega
  have hmonth : ((i + 1) % 12).toNat = 0 := by omega
  rw [firstOf, firstOf, h, hyear, hmonth]
  exact ⟨rfl, rfl⟩

/-- **The next month starts right after the month.** -/
theorem monthStart_succ (i : Int) : monthStart (i + 1) = monthStart i + lengthOf i := by
  rw [monthStart, monthStart, lengthOf]
  by_cases h : i % 12 < 11
  · have hmonth : 1 ≤ (firstOf i).month := Nat.le_add_left ..
    rw [firstOf_succ_of_lt h, dayNumber, dayNumber]
    dsimp only
    rw [daysBeforeMonth_succ _ hmonth]
    show _ = dayOfYear (firstOf i).year + _ + ((1 - 1 : Nat) : Int) + _
    omega
  · obtain ⟨hlast, hfirst⟩ := firstOf_succ_of_eq (show i % 12 = 11 by omega)
    rw [hlast, hfirst, dayNumber, dayNumber]
    dsimp only
    rw [dayOfYear_succ, daysBeforeMonth_succ _ (show 1 ≤ 12 by decide), daysBeforeMonth_one]
    omega

theorem monthStart_add_length_le (h : i < j) : monthStart i + lengthOf i ≤ monthStart j := by
  obtain ⟨d, rfl⟩ : ∃ d : Nat, j = i + 1 + d := ⟨(j - (i + 1)).toNat, by omega⟩
  clear h
  induction d with
  | zero =>
      have hnext := monthStart_succ i
      rw [Int.natCast_zero, Int.add_zero]
      omega
  | succ d ih =>
      have hnext := monthStart_succ (i + 1 + d)
      rw [Int.natCast_succ, ← Int.add_assoc]
      omega

theorem monthStart_mono (h : i ≤ j) : monthStart i ≤ monthStart j := by
  rcases Int.lt_or_eq_of_le h with hlt | rfl
  · have := monthStart_add_length_le hlt
    omega
  · exact Int.le_refl _

/-! ## Days within months -/

theorem firstOf_monthNumber (h : isValid date) :
    firstOf (monthNumber date) = ⟨date.year, date.month, 1⟩ := by
  have hmonth := (isValid_iff.mp h).1
  have hyear : (date.year * 12 + (date.month - 1 : Nat)) / 12 = date.year := by omega
  have hrest : ((date.year * 12 + (date.month - 1 : Nat)) % 12).toNat + 1 = date.month := by omega
  rw [firstOf, monthNumber, hyear, hrest]

theorem lengthOf_monthNumber (h : isValid date) :
    lengthOf (monthNumber date) = monthLength date.year date.month := by
  rw [lengthOf, firstOf_monthNumber h]

/-- **A day is the start of its month and how far it is into the month.** -/
theorem dayNumber_eq (h : isValid date) :
    dayNumber date = monthStart (monthNumber date) + date.day - 1 := by
  have hday := (isValid_iff.mp h).2
  rw [monthStart, firstOf_monthNumber h, dayNumber, dayNumber]
  dsimp only
  omega

/-- A day lies within its month. -/
theorem dayNumber_bounds (h : isValid date) :
    monthStart (monthNumber date) ≤ dayNumber date ∧
      dayNumber date < monthStart (monthNumber date + 1) := by
  have hday := (isValid_iff.mp h).2
  rw [monthStart_succ, lengthOf_monthNumber h, dayNumber_eq h]
  omega

theorem dayNumber_lt_of_monthNumber_lt (hdate : isValid date) (hother : isValid other)
    (h : monthNumber date < monthNumber other) : dayNumber date < dayNumber other := by
  have hdate := dayNumber_bounds hdate
  have hother := dayNumber_bounds hother
  have hmonths := monthStart_mono (show monthNumber date + 1 ≤ monthNumber other by omega)
  omega

/-- The number of a month tells the month and its year. -/
theorem eq_of_monthNumber_eq (hdate : isValid date) (hother : isValid other)
    (h : monthNumber date = monthNumber other) :
    date.year = other.year ∧ date.month = other.month := by
  have hfirst := firstOf_monthNumber hdate
  rw [h, firstOf_monthNumber hother] at hfirst
  obtain ⟨hyear, hmonth, -⟩ := Date.mk.inj hfirst
  exact ⟨hyear.symm, hmonth.symm⟩

/-- **No two days have one number.** -/
theorem dayNumber_injective (hdate : isValid date) (hother : isValid other)
    (h : dayNumber date = dayNumber other) : date = other := by
  have hmonths : monthNumber date = monthNumber other := by
    rcases Int.lt_trichotomy (monthNumber date) (monthNumber other) with hlt | heq | hlt
    · have := dayNumber_lt_of_monthNumber_lt hdate hother hlt
      omega
    · exact heq
    · have := dayNumber_lt_of_monthNumber_lt hother hdate hlt
      omega
  obtain ⟨hyear, hmonth⟩ := eq_of_monthNumber_eq hdate hother hmonths
  have hdays := dayNumber_eq hdate
  rw [h, dayNumber_eq hother, hmonths] at hdays
  exact Date.ext hyear hmonth (by omega)

/-! ## The date of a number -/

/-- The year is found: the average length of years is off by one year at most. -/
theorem yearOfDay_spec (n : Int) :
    dayOfYear (yearOfDay n) ≤ n ∧ n < dayOfYear (yearOfDay n + 1) := by
  rw [yearOfDay]
  split
  · rename_i h
    rw [dayOfYear] at h
    rw [dayOfYear, dayOfYear]
    omega
  · split
    · rename_i h h'
      rw [dayOfYear] at h h'
      rw [dayOfYear, dayOfYear]
      omega
    · omega

/-- The month and the day are found. -/
theorem monthAndDay_spec (year : Int) {fuel month left : Nat} (hmonth : 1 ≤ month)
    (hfuel : month + fuel = 12)
    (hleft : daysBeforeMonth year month + left < daysBeforeMonth year 13) :
    let found := monthAndDay year fuel month left
    isValid ⟨year, found.1, found.2⟩ ∧
      daysBeforeMonth year found.1 + (found.2 - 1) = daysBeforeMonth year month + left := by
  induction fuel generalizing month left with
  | zero =>
      obtain rfl : month = 12 := hfuel
      rw [daysBeforeMonth_succ year (show 1 ≤ 12 by decide)] at hleft
      rw [monthAndDay]
      refine ⟨isValid_iff.mpr ⟨⟨Nat.le_add_left .., Nat.le_refl _⟩, Nat.le_add_left .., ?_⟩, rfl⟩
      dsimp only
      omega
  | succ fuel ih =>
      rw [monthAndDay]
      split
      · rename_i hhere
        refine ⟨isValid_iff.mpr ⟨⟨hmonth, ?_⟩, Nat.le_add_left .., hhere⟩, rfl⟩
        dsimp only
        omega
      · rename_i hlater
        have hnext := daysBeforeMonth_succ year hmonth
        obtain ⟨hfound, hdays⟩ := @ih (month + 1) (left - monthLength year month)
          (by omega) (by omega) (by omega)
        exact ⟨hfound, hdays.trans (by omega)⟩

theorem dateOfDay_spec (n : Int) : isValid (dateOfDay n) ∧ dayNumber (dateOfDay n) = n := by
  obtain ⟨hfrom, hto⟩ := yearOfDay_spec n
  rw [dayOfYear_succ] at hto
  have hleft : (n - dayOfYear (yearOfDay n)).toNat < daysBeforeMonth (yearOfDay n) 13 := by
    omega
  obtain ⟨hfound, hdays⟩ := @monthAndDay_spec (yearOfDay n) 11 1
    (n - dayOfYear (yearOfDay n)).toNat (Nat.le_refl 1) rfl
    (by rwa [daysBeforeMonth_one, Nat.zero_add])
  refine ⟨hfound, ?_⟩
  rw [daysBeforeMonth_one, Nat.zero_add] at hdays
  rw [dateOfDay, dayNumber]
  dsimp only
  omega

/-- **The date of a number is on the calendar**, and has the number. -/
theorem isValid_dateOfDay (n : Int) : isValid (dateOfDay n) := (dateOfDay_spec n).1

theorem dayNumber_dateOfDay (n : Int) : dayNumber (dateOfDay n) = n := (dateOfDay_spec n).2

theorem dateOfDay_dayNumber (h : isValid date) : dateOfDay (dayNumber date) = date :=
  dayNumber_injective (isValid_dateOfDay _) h (dayNumber_dateOfDay _)

/-! ## Months later -/

theorem isValid_addMonths (h : isValid date) (months : Nat) :
    isValid (addMonths date months) := by
  have hday := (isValid_iff.mp h).2
  rw [addMonths]
  refine isValid_iff.mpr ⟨⟨Nat.le_add_left .., ?_⟩, ?_, Nat.min_le_right ..⟩
  · dsimp only
    omega
  · dsimp only
    have hlength := le_monthLength ((date.year * 12 + (date.month - 1 : Nat) + months) / 12)
      (((date.year * 12 + (date.month - 1 : Nat) + months) % 12).toNat + 1)
    omega

theorem day_addMonths (date : Date) (months : Nat) :
    (addMonths date months).day = min date.day
      (monthLength (addMonths date months).year (addMonths date months).month) := rfl

theorem monthNumber_addMonths (date : Date) (months : Nat) :
    monthNumber (addMonths date months) = monthNumber date + months := by
  rw [addMonths, monthNumber, monthNumber]
  dsimp only
  omega

end Placement.Calendar
