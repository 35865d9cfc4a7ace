import Placement.Experiment
import Placement.Json
/-! # Experiments as JSON -/
namespace Placement

namespace VariantType

/-- The name of the type in documents. -/
def wireName : VariantType → String
  | .treatment => "TREATMENT"
  | .holdout => "HOLDOUT"

/-- The type as a document. -/
def toJson (type : VariantType) : Json := .string type.wireName

/-- The type from a document. -/
def decode? (j : Json) : Option VariantType := do
  let name ← j.name?
  [VariantType.treatment, .holdout].find? fun type => type.wireName == name

theorem decode?_toJson (type : VariantType) : decode? type.toJson = some type := by
  cases type <;> simp [decode?, toJson, Json.name?, wireName]

end VariantType

namespace Variant

/-- A variant as a document. -/
def toJson (v : Variant) : Json :=
  Json.ofFields
    [("id", .string v.id), ("type", v.type.toJson),
     ("paywallId", Json.ofOption .string v.paywallId)]

/-- A variant from a document. -/
def decode? (j : Json) : Option Variant := do
  let j ← j.record? ["id", "type", "paywallId"]
  let id ← j.required? Json.string? "id"
  let type ← j.required? VariantType.decode? "type"
  let paywallId ← j.optional? Json.string? "paywallId"
  some { id, type, paywallId }

theorem decode?_toJson (v : Variant) : decode? v.toJson = some v := by
  obtain ⟨id, type, paywallId⟩ := v
  cases paywallId <;>
    simp [decode?, toJson, Json.required?, Json.optional?, Json.field?_ofFields, Json.string?,
      Json.ofOption, VariantType.decode?_toJson]

end Variant

namespace VariantOption

/-- A variant with its weight as a document. -/
def toJson (o : VariantOption) : Json :=
  Json.ofFields
    [("id", .string o.id), ("type", o.type.toJson), ("percentage", .int o.weight.toNat),
     ("paywallId", Json.ofOption .string o.paywallId)]

/-- A variant with its weight from a document. -/
def decode? (j : Json) : Option VariantOption := do
  let j ← j.record? ["id", "type", "percentage", "paywallId"]
  let id ← j.required? Json.string? "id"
  let type ← j.required? VariantType.decode? "type"
  let weight ← j.required? Json.nat32? "percentage"
  let paywallId ← j.optional? Json.string? "paywallId"
  some { id, type, weight := UInt32.ofNat weight, paywallId }

theorem decode?_toJson (o : VariantOption) : decode? o.toJson = some o := by
  have hid : o.toJson.field? "id" = some (.string o.id) := by
    simp [toJson, Json.field?_ofFields]
  have htype : o.toJson.field? "type" = some o.type.toJson := by
    simp [toJson, Json.field?_ofFields]
  have hpercentage : o.toJson.field? "percentage" = some (.int o.weight.toNat) := by
    simp [toJson, Json.field?_ofFields]
  have hpaywall : o.toJson.field? "paywallId" = some (Json.ofOption .string o.paywallId) := by
    simp [toJson, Json.field?_ofFields]
  have hweight : Json.nat32? (.int o.weight.toNat) = some o.weight.toNat :=
    Json.nat32?_natCast o.weight.toNat_lt
  have hrecord : o.toJson.record? ["id", "type", "percentage", "paywallId"] = some o.toJson := rfl
  rw [decode?, hrecord, Option.bind_eq_bind, Option.bind_some, Json.required?, hid,
    Json.required?, htype, Json.required?, hpercentage,
    Json.optional?, hpaywall, Option.bind_some, Option.bind_some, Option.bind_some, hweight,
    VariantType.decode?_toJson]
  obtain ⟨id, type, weight, paywallId⟩ := o
  cases paywallId <;>
    simp only [Json.string?, Json.ofOption, Option.map_some, Option.bind_eq_bind, Option.bind_some,
      UInt32.ofNat_toNat]

end VariantOption

namespace Experiment

/-- An experiment as a document. -/
def toJson (e : Experiment) : Json :=
  Json.ofFields
    [("id", .string e.id), ("groupId", .string e.groupId), ("variant", e.variant.toJson)]

/-- An experiment from a document. -/
def decode? (j : Json) : Option Experiment := do
  let j ← j.record? ["id", "groupId", "variant"]
  let id ← j.required? Json.string? "id"
  let groupId ← j.required? Json.string? "groupId"
  let variant ← j.required? Variant.decode? "variant"
  some { id, groupId, variant }

end Experiment

namespace ServerAssignment

/-- An assignment as a document. -/
def toJson (a : ServerAssignment) : Json :=
  Json.ofFields [("experimentId", .string a.experimentId), ("variantId", .string a.variantId)]

/-- An assignment from a document. -/
def decode? (j : Json) : Option ServerAssignment := do
  let j ← j.record? ["experimentId", "variantId"]
  let experimentId ← j.required? Json.string? "experimentId"
  let variantId ← j.required? Json.string? "variantId"
  some { experimentId, variantId }

end ServerAssignment

namespace Seed

/-- A seed as a document. -/
def toJson (seed : Seed) : Json := .int seed.value

/-- A seed from a document. -/
def decode (j : Json) : Except DecodeFault Seed :=
  match j.nat32? with
  | none => .error .malformed
  | some value =>
      match ofNat? value with
      | some seed => .ok seed
      | none => .error (.seedOutOfRange value)

theorem decode_toJson (seed : Seed) : decode seed.toJson = .ok seed := by
  have h := seed.inRange
  rw [decode, toJson, Json.nat32?_natCast (by omega)]
  simp only [ofNat?, h, dite_true]

end Seed
end Placement
