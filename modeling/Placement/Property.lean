import Placement.Time.Timestamp
/-! # Computed properties

Values that are derived from the history of events: how long ago an event last
happened, or how often it happened lately.
-/
namespace Placement

/-- A computed property. -/
inductive Property
  | minutesSince | hoursSince | daysSince | monthsSince
  | placementsInHour | placementsInDay | placementsInWeek | placementsInMonth
  | placementsSinceInstall
  deriving DecidableEq

/-- A computed property of a certain event. -/
structure PropertyRequest where
  property : Property
  eventName : String
  deriving DecidableEq

namespace Property

/-- All computed properties, in their order. -/
def all : List Property :=
  [.minutesSince, .hoursSince, .daysSince, .monthsSince, .placementsInHour, .placementsInDay,
   .placementsInWeek, .placementsInMonth, .placementsSinceInstall]

/-- The name of the property as a host function. -/
def functionName : Property → String
  | .minutesSince => "minutesSince"
  | .hoursSince => "hoursSince"
  | .daysSince => "daysSince"
  | .monthsSince => "monthsSince"
  | .placementsInHour => "placementsInHour"
  | .placementsInDay => "placementsInDay"
  | .placementsInWeek => "placementsInWeek"
  | .placementsInMonth => "placementsInMonth"
  | .placementsSinceInstall => "placementsSinceInstall"

/-- The property that a host function computes. -/
def ofFunctionName? (name : String) : Option Property :=
  all.find? fun property => property.functionName == name

/-- What the names of device attributes with the property start with. -/
def attributePrefix (property : Property) : String := property.functionName ++ "_"

/-- What a property asks of the history. -/
inductive Question
  /-- When the event last happened, and what is made of it: the answer for now and
  that time. -/
  | since (measure : Timestamp → Timestamp → Int)
  /-- How often the event happened in so many nanoseconds up to now. -/
  | within (window : Int)
  /-- How often the event happened at all. -/
  | ever

/-- Whole units of `unit` nanoseconds from `last` to `now`, none if `last` is later. -/
def elapsed (unit : Int) (now last : Timestamp) : Int := max (now.nanos - last.nanos) 0 / unit

/-- Nanoseconds of a minute. -/
def minute : Int := 60 * Timestamp.nanosPerSecond

/-- The question that a property asks. -/
def question : Property → Question
  | .minutesSince => .since (elapsed minute)
  | .hoursSince => .since (elapsed (60 * minute))
  | .daysSince => .since (elapsed Timestamp.nanosPerDay)
  | .monthsSince => .since fun now last => last.wholeMonths now
  | .placementsInHour => .within (60 * minute)
  | .placementsInDay => .within Timestamp.nanosPerDay
  | .placementsInWeek => .within (7 * Timestamp.nanosPerDay)
  | .placementsInMonth => .within (30 * Timestamp.nanosPerDay)
  | .placementsSinceInstall => .ever

end Property

/-- The device attribute that shows the answer, such as `daysSince_signup`. -/
def PropertyRequest.attributeName (request : PropertyRequest) : String :=
  request.property.attributePrefix ++ request.eventName

end Placement
