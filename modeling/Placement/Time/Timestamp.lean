import Placement.Time.Calendar
/-! # Points in time

A timestamp counts nanoseconds from the start of 1970.  Years from `-262143` to
`262142` can be represented.  Going back from an early timestamp can leave that
range (`Timestamp.minus?`); whoever subtracts has to say what happens then.

The instants within a leap second are left out.  Where a text names one, the clock
remembers it (`ClockTime.leap`), and its timestamp is the same instant of the second
before; whatever is calculated starts from there.
-/
namespace Placement

namespace Timestamp

/-- Nanoseconds of a second. -/
def nanosPerSecond : Int := 1000000000

/-- Nanoseconds of a day. -/
def nanosPerDay : Int := 86400 * nanosPerSecond

/-- The number of the day on which the count starts. -/
def epochDay : Int := 719162

/-- The first instant that can be represented. -/
def minNanos : Int := -8334601228800 * nanosPerSecond

/-- The last instant that can be represented. -/
def maxNanos : Int := 8210266876800 * nanosPerSecond - 1

example : epochDay = Calendar.dayNumber ⟨1970, 1, 1⟩ := by decide
example : minNanos = (Calendar.dayNumber ⟨-262143, 1, 1⟩ - epochDay) * nanosPerDay := by decide
example : maxNanos = (Calendar.dayNumber ⟨262143, 1, 1⟩ - epochDay) * nanosPerDay - 1 := by decide

end Timestamp

/-- A point in time. -/
structure Timestamp where
  /-- Nanoseconds since the start of 1970. -/
  nanos : Int
  inRange : Timestamp.minNanos ≤ nanos ∧ nanos ≤ Timestamp.maxNanos
  deriving DecidableEq

namespace Timestamp

/-- The timestamp of a count, if it can be represented. -/
def ofNanos? (nanos : Int) : Option Timestamp :=
  if h : minNanos ≤ nanos ∧ nanos ≤ maxNanos then some ⟨nanos, h⟩ else none

/-- The timestamp of a count of milliseconds. -/
def ofMillis? (millis : Int) : Option Timestamp := ofNanos? (millis * 1000000)

/-- The whole milliseconds of a timestamp. -/
def millis (t : Timestamp) : Int := t.nanos / 1000000

/-- The start of 1970. -/
def epoch : Timestamp := ⟨0, by decide⟩

/-- The first instant. -/
def first : Timestamp := ⟨minNanos, by decide⟩

instance : Inhabited Timestamp := ⟨epoch⟩

instance : LE Timestamp := ⟨fun a b => a.nanos ≤ b.nanos⟩

instance : LT Timestamp := ⟨fun a b => a.nanos < b.nanos⟩

instance (a b : Timestamp) : Decidable (a ≤ b) := inferInstanceAs (Decidable (a.nanos ≤ b.nanos))

instance (a b : Timestamp) : Decidable (a < b) := inferInstanceAs (Decidable (a.nanos < b.nanos))

/-- The instant so many nanoseconds earlier, if it can be represented. -/
def minus? (t : Timestamp) (nanos : Int) : Option Timestamp := ofNanos? (t.nanos - nanos)

/-- The later of two instants. -/
def later (a b : Timestamp) : Timestamp := if a ≤ b then b else a

/-- The day of an instant. -/
def date (t : Timestamp) : Date := Calendar.dateOfDay (t.nanos / nanosPerDay + epochDay)

/-- Nanoseconds since the start of the day. -/
def timeOfDay (t : Timestamp) : Int := t.nanos % nanosPerDay

/-- The instant of a day and a time of day, if it can be represented. -/
def ofDate? (date : Date) (timeOfDay : Int) : Option Timestamp :=
  ofNanos? ((Calendar.dayNumber date - epochDay) * nanosPerDay + timeOfDay)

/-- The same time of day so many months later, if it can be represented. -/
def addMonths? (t : Timestamp) (months : Nat) : Option Timestamp :=
  ofDate? (Calendar.addMonths t.date months) t.timeOfDay

/-- Whether so many months after `start` is not after `stop`. -/
def reaches (start stop : Timestamp) (months : Nat) : Bool :=
  (start.addMonths? months).any fun t => decide (t ≤ stop)

/-- The largest `m ≤ candidate` such that `m` months after `start` is not after `stop`. -/
def monthsUpTo (start stop : Timestamp) : Nat → Nat
  | 0 => 0
  | candidate + 1 =>
      if start.reaches stop (candidate + 1) then candidate + 1 else monthsUpTo start stop candidate

/-- **The number of whole calendar months** from `start` to `stop`; `0` if `stop` is not
later.  The difference of the months on the calendar is the first candidate. -/
def wholeMonths (start stop : Timestamp) : Nat :=
  if stop ≤ start then 0
  else
    let d := start.date
    let e := stop.date
    monthsUpTo start stop ((e.year - d.year) * 12 + e.month - d.month).toNat

end Timestamp
end Placement
