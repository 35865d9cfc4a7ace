import Placement.Proofs.Wire.Trees
import Placement.Rule.Wire
/-! # Configurations come back from their documents

A configuration that was read, then written and read again, is the same: **every rule that
was read stays the same rule, and every rule that was not stays as it came**
(`wire_round_trip`).

A rule comes back if its tree does (`Rule.decode?_toJson`).  A rule that could not be read
is written as it came, so it is read in vain again.  What has to be shown of the first
reading is that it leaves nothing that cannot be written: the doubles of its trees are
finite (`Rule.storable_of_decode?`).
-/
namespace Placement

namespace Rule

/-- All doubles in the tree of the rule are finite, if it has one. -/
def Storable (r : Rule) : Prop := ∀ e, r.expressionTree = some e → e.Storable

theorem optional?_expressionTree {r : Rule} (nested : Bool) (h : r.Storable) :
    r.toJson.optional? (Expression.decode? nested) "expressionAst" = some r.expressionTree := by
  have hfield : r.toJson.field? "expressionAst" =
      some (Json.ofOption Expression.toJson r.expressionTree) := by
    simp [toJson, Json.field?_ofFields]
  rw [Json.optional?, hfield]
  cases htree : r.expressionTree with
  | none => rfl
  | some e =>
      have hread := Expression.decode?_toJson nested e (h e htree)
      have hnull := Expression.toJson_ne_null e
      rw [Json.ofOption]
      split
      · rename_i hnone
        cases hnone
      · rename_i hsome
        exact absurd (Option.some.inj hsome) hnull
      · rename_i x _ hsome
        cases hsome
        rw [hread]
        rfl

/-- **A rule is read back as it was**, if its tree can be stored. -/
theorem decode?_toJson {r : Rule} (nested : Bool) (h : r.Storable) :
    decode? nested r.toJson = some r := by
  have hexperiment : r.toJson.required? Json.string? "experimentId" = some r.experimentId := by
    simp [toJson, Json.required?, Json.field?_ofFields, Json.string?]
  have hgroup : r.toJson.required? Json.string? "experimentGroupId" =
      some r.experimentGroupId := by
    simp [toJson, Json.required?, Json.field?_ofFields, Json.string?]
  have hexpression : r.toJson.optional? Json.string? "expression" = some r.expression := by
    cases hsource : r.expression <;>
      simp [toJson, Json.optional?, Json.field?_ofFields, Json.ofOption, Json.string?, hsource]
  have hvariants : r.toJson.required? (Json.list? VariantOption.decode?) "variants" =
      some r.variants := by
    simp [toJson, Json.required?, Json.field?_ofFields,
      Json.list?_ofList fun x _ => VariantOption.decode?_toJson x]
  have hrequests : r.toJson.withDefault? (Json.list? PropertyRequest.decode?) []
      "computedPropertyRequests" = some r.requests := by
    simp [toJson, Json.withDefault?, Json.field?_ofFields,
      Json.list?_ofList fun x _ => PropertyRequest.decode?_toJson x]
  have hpreload : r.toJson.withDefault? PreloadPolicy.decode? PreloadPolicy.default "preload" =
      some r.preload := by
    simp [toJson, Json.withDefault?, Json.field?_ofFields, PreloadPolicy.decode?_toJson]
  have hrecord : r.toJson.record? fieldNames = some r.toJson := rfl
  rw [decode?, hrecord, Option.bind_eq_bind, Option.bind_some, hexperiment, hgroup, hexpression,
    optional?_expressionTree nested h, hvariants, hrequests, hpreload]
  rfl

/-- **A rule that was read can be stored.** -/
theorem storable_of_decode? {nested : Bool} {j : Json} {r : Rule} (hj : j.Sized)
    (h : decode? nested j = some r) : r.Storable := by
  intro e he
  obtain ⟨record, hrecord, h⟩ := Option.bind_eq_some_iff.mp h
  obtain ⟨experimentId, -, h⟩ := Option.bind_eq_some_iff.mp h
  obtain ⟨groupId, -, h⟩ := Option.bind_eq_some_iff.mp h
  obtain ⟨expression, -, h⟩ := Option.bind_eq_some_iff.mp h
  obtain ⟨tree, htree, h⟩ := Option.bind_eq_some_iff.mp h
  obtain ⟨variants, -, h⟩ := Option.bind_eq_some_iff.mp h
  obtain ⟨requests, -, h⟩ := Option.bind_eq_some_iff.mp h
  obtain ⟨preload, -, h⟩ := Option.bind_eq_some_iff.mp h
  cases h
  cases he
  rw [Json.optional?] at htree
  split at htree
  · cases htree
  · cases htree
  · rename_i x _ hx
    obtain ⟨d, hd, hde⟩ := Option.map_eq_some_iff.mp htree
    cases hde
    exact Expression.storable_of_decode? nested x ((hj.record? hrecord).field? hx) hd

end Rule

namespace RuleEntry

/-- What an entry says about its document is so: a rule that was read can be stored, and
what was kept as it came is no rule. -/
def Faithful : RuleEntry → Prop
  | .parsed rule => rule.Storable
  | .failed raw => Rule.decode? true raw = none

/-- **An entry is read back as it was**: a rule as the rule, anything else as it came. -/
theorem ofJson_toJson {entry : RuleEntry} (h : entry.Faithful) : ofJson entry.toJson = entry := by
  cases entry with
  | parsed rule => rw [ofJson, toJson, Rule.decode?_toJson true h]
  | failed raw =>
      have hraw : Rule.decode? true raw = none := h
      rw [ofJson, toJson, hraw]

end RuleEntry

namespace Trigger

/-- All entries are faithful. -/
def Faithful (t : Trigger) : Prop := ∀ entry ∈ t.rules, entry.Faithful

theorem decode?_toJson {t : Trigger} (h : t.Faithful) : decode? t.toJson = some t := by
  have hrules : (Json.ofList RuleEntry.toJson t.rules).list?
      (fun raw => some (RuleEntry.ofJson raw)) = some t.rules :=
    Json.list?_ofList fun entry hentry => congrArg some (RuleEntry.ofJson_toJson (h entry hentry))
  simp [decode?, toJson, Json.required?, Json.field?_ofFields, Json.string?, hrules]

end Trigger

namespace Config

/-- All entries are faithful. -/
def Faithful (c : Config) : Prop := ∀ t ∈ c.triggers, t.Faithful

theorem decode?_toJson {c : Config} (h : c.Faithful) : decode? c.toJson = some c := by
  have htriggers :
      (Json.ofList Trigger.toJson c.triggers).list? Trigger.decode? = some c.triggers :=
    Json.list?_ofList fun t ht => Trigger.decode?_toJson (h t ht)
  simp [decode?, toJson, Json.required?, Json.field?_ofFields, htriggers]

end Config

end Placement
