import Placement.Json
import Placement.Property
/-! # Computed properties as JSON -/
namespace Placement

namespace Property

/-- The name of the property in documents. -/
def wireName : Property → String
  | .minutesSince => "MINUTES_SINCE"
  | .hoursSince => "HOURS_SINCE"
  | .daysSince => "DAYS_SINCE"
  | .monthsSince => "MONTHS_SINCE"
  | .placementsInHour => "PLACEMENTS_IN_HOUR"
  | .placementsInDay => "PLACEMENTS_IN_DAY"
  | .placementsInWeek => "PLACEMENTS_IN_WEEK"
  | .placementsInMonth => "PLACEMENTS_IN_MONTH"
  | .placementsSinceInstall => "PLACEMENTS_SINCE_INSTALL"

/-- A property as a document. -/
def toJson (property : Property) : Json := .string property.wireName

/-- A property from a document. -/
def decode? (j : Json) : Option Property := do
  let name ← j.name?
  all.find? fun property => property.wireName == name

theorem decode?_toJson (property : Property) : decode? property.toJson = some property := by
  cases property <;> simp [decode?, toJson, Json.name?, all, wireName]

end Property

namespace PropertyRequest

/-- A request as a document. -/
def toJson (r : PropertyRequest) : Json :=
  Json.ofFields [("type", r.property.toJson), ("eventName", .string r.eventName)]

/-- A request from a document. -/
def decode? (j : Json) : Option PropertyRequest := do
  let j ← j.record? ["type", "eventName"]
  let property ← j.required? Property.decode? "type"
  let eventName ← j.required? Json.string? "eventName"
  some { property, eventName }

theorem decode?_toJson (r : PropertyRequest) : decode? r.toJson = some r := by
  simp [decode?, toJson, Json.required?, Json.field?_ofFields, Json.string?,
    Property.decode?_toJson]

end PropertyRequest
end Placement
