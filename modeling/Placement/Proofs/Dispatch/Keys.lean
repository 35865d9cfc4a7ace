import Mathlib.Data.List.Nodup
import Placement.Rule
import Placement.Waitlist
import Placement.Proofs.Wire.Printing
/-! # Which requests share an evaluation

A key holds the name of an event, the text of its parameters and the number of the rules.
**The text tells the parameters**, but for one thing: JSON has no word for a double that is
infinite or undefined, and `null` stands for it (`Value.asWritten`).  **The number tells the
rules**, as every configuration that is activated counts one further
(`RuleSet.pairwise_snapshots`).  So requests share a key just in case they agree in name,
parameters as written, and rules (`RequestKey.ofEvent_eq_iff`).
-/
namespace Placement

/-! ## Parameters as written -/

namespace Value

mutual

/-- A value as its document tells it: a double that is not finite is `null`. -/
def asWritten : Value → Value
  | .float x => if x.isFinite = true then .float x else .null
  | .list items => .list (asWrittenItems items)
  | .map entries => .map (asWrittenEntries entries)
  | .null => .null
  | .bool b => .bool b
  | .int n => .int n
  | .string s => .string s

def asWrittenItems : List Value → List Value
  | [] => []
  | v :: rest => asWritten v :: asWrittenItems rest

def asWrittenEntries : List (String × Value) → List (String × Value)
  | [] => []
  | (key, v) :: rest => (key, asWritten v) :: asWrittenEntries rest

end

mutual

/-- Every double inside the value is finite. -/
def AllFinite : Value → Prop
  | .float x => x.isFinite = true
  | .list items => AllFiniteItems items
  | .map entries => AllFiniteEntries entries
  | _ => True

def AllFiniteItems : List Value → Prop
  | [] => True
  | v :: rest => AllFinite v ∧ AllFiniteItems rest

def AllFiniteEntries : List (String × Value) → Prop
  | [] => True
  | (_, v) :: rest => AllFinite v ∧ AllFiniteEntries rest

end

mutual

/-- Only doubles that are not finite are written differently. -/
theorem asWritten_eq_self : ∀ {v : Value}, v.AllFinite → v.asWritten = v
  | .null, _ => rfl
  | .bool _, _ => rfl
  | .int _, _ => rfl
  | .float _, h => if_pos h
  | .string _, _ => rfl
  | .list _, h => congrArg Value.list (asWrittenItems_eq_self h)
  | .map _, h => congrArg Value.map (asWrittenEntries_eq_self h)

theorem asWrittenItems_eq_self : ∀ {items : List Value}, AllFiniteItems items →
    asWrittenItems items = items
  | [], _ => rfl
  | _ :: _, h => congrArg₂ List.cons (asWritten_eq_self h.1) (asWrittenItems_eq_self h.2)

theorem asWrittenEntries_eq_self : ∀ {entries : List (String × Value)},
    AllFiniteEntries entries → asWrittenEntries entries = entries
  | [], _ => rfl
  | (key, _) :: _, h =>
      congrArg₂ List.cons (congrArg (key, ·) (asWritten_eq_self h.1))
        (asWrittenEntries_eq_self h.2)

end

mutual

/-- **The document of a value tells it as it is written.** -/
theorem ofJson_toJson : ∀ v : Value, ofJson v.toJson = v.asWritten
  | .null => rfl
  | .bool _ => rfl
  | .int n => by rw [toJson, ofJson, int64?_toInt, asWritten]
  | .float x => by
      rw [toJson, Json.ofFloat, asWritten]
      split <;> rfl
  | .string _ => rfl
  | .list items => by rw [toJson, ofJson, ofJsonItems_toJsonItems items, asWritten]
  | .map entries => by rw [toJson, ofJson, ofJsonFields_toJsonEntries entries, asWritten]

theorem ofJsonItems_toJsonItems : ∀ items : List Value,
    ofJsonItems (toJsonItems items) = asWrittenItems items
  | [] => rfl
  | v :: rest => by
      rw [toJsonItems, ofJsonItems, ofJson_toJson v, ofJsonItems_toJsonItems rest, asWrittenItems]

theorem ofJsonFields_toJsonEntries : ∀ entries : List (String × Value),
    ofJsonFields (toJsonEntries entries) = asWrittenEntries entries
  | [] => rfl
  | (key, v) :: rest => by
      rw [toJsonEntries, ofJsonFields, ofJson_toJson v, ofJsonFields_toJsonEntries rest,
        asWrittenEntries]

end

mutual

/-- And it tells nothing else. -/
theorem toJson_asWritten : ∀ v : Value, v.asWritten.toJson = v.toJson
  | .null => rfl
  | .bool _ => rfl
  | .int _ => rfl
  | .float x => by
      rw [asWritten]
      split
      · rfl
      · rename_i hx
        rw [toJson, toJson, Json.ofFloat, dif_neg hx]
  | .string _ => rfl
  | .list items => by rw [asWritten, toJson, toJson, toJsonItems_asWrittenItems items]
  | .map entries => by rw [asWritten, toJson, toJson, toJsonEntries_asWrittenEntries entries]

theorem toJsonItems_asWrittenItems : ∀ items : List Value,
    toJsonItems (asWrittenItems items) = toJsonItems items
  | [] => rfl
  | v :: rest => by
      rw [asWrittenItems, toJsonItems, toJson_asWritten v, toJsonItems_asWrittenItems rest,
        toJsonItems]

theorem toJsonEntries_asWrittenEntries : ∀ entries : List (String × Value),
    toJsonEntries (asWrittenEntries entries) = toJsonEntries entries
  | [] => rfl
  | (key, v) :: rest => by
      rw [asWrittenEntries, toJsonEntries, toJson_asWritten v, toJsonEntries_asWrittenEntries rest,
        toJsonEntries]

end
end Value

namespace Attributes

/-- Attributes as their document tells them. -/
def asWritten (attributes : Attributes) : Attributes := Dict.map Value.asWritten attributes

theorem asWritten_eq_self {attributes : Attributes}
    (h : ∀ key v, attributes.find? key = some v → v.AllFinite) :
    attributes.asWritten = attributes := by
  apply Dict.ext_find?
  intro key
  rw [asWritten, Dict.find?_map]
  cases hfind : attributes.find? key with
  | none => rfl
  | some v => exact congrArg some (Value.asWritten_eq_self (h key v hfind))

theorem toJson_asWritten (attributes : Attributes) :
    attributes.asWritten.toJson = attributes.toJson := by
  have hvalue : Value.toJson ∘ Value.asWritten = Value.toJson := funext Value.toJson_asWritten
  rw [toJson, toJson, Json.ofDict, Json.ofDict, asWritten, Dict.map_map, hvalue]

theorem map_ofJson_toJson (attributes : Attributes) :
    Dict.map Value.ofJson (Dict.map Value.toJson attributes) = attributes.asWritten := by
  have hvalue : Value.ofJson ∘ Value.toJson = Value.asWritten := funext Value.ofJson_toJson
  rw [Dict.map_map, hvalue, asWritten]

/-- **Attributes have one document just in case they are written alike.** -/
theorem toJson_eq_iff {a b : Attributes} : a.toJson = b.toJson ↔ a.asWritten = b.asWritten := by
  constructor
  · intro h
    have hdocuments : Dict.map Value.toJson a = Dict.map Value.toJson b :=
      Dict.entries_injective (Json.object.inj h)
    rw [← map_ofJson_toJson a, ← map_ofJson_toJson b, hdocuments]
  · intro h
    rw [← toJson_asWritten a, ← toJson_asWritten b, h]

end Attributes

/-! ## The numbers of rule sets -/

namespace RuleSet

/-- The rule sets that are active one after the other when configurations are activated,
from `rules` on. -/
def snapshots (rules : RuleSet) (configs : List Config) : List RuleSet :=
  configs.scanl activate rules

theorem generation_activate (rules : RuleSet) (config : Config) :
    (rules.activate config).generation = rules.generation + 1 := rfl

theorem generation_le_of_mem {rules : RuleSet} {configs : List Config} :
    ∀ s ∈ rules.snapshots configs, rules.generation ≤ s.generation := by
  induction configs generalizing rules with
  | nil =>
      intro s hs
      rw [snapshots, List.scanl_nil, List.mem_singleton] at hs
      rw [hs]
  | cons config configs ih =>
      intro s hs
      rw [snapshots, List.scanl_cons] at hs
      rcases List.mem_cons.mp hs with rfl | hlater
      · exact Nat.le_refl _
      · have hnext := ih s hlater
        rw [generation_activate] at hnext
        omega

/-- **So a run never uses a number twice.** -/
theorem pairwise_snapshots (rules : RuleSet) (configs : List Config) :
    (rules.snapshots configs).Pairwise fun s t => s.generation < t.generation := by
  induction configs generalizing rules with
  | nil =>
      rw [snapshots, List.scanl_nil]
      exact List.pairwise_singleton _ _
  | cons config configs ih =>
      rw [snapshots, List.scanl_cons]
      refine List.pairwise_cons.mpr ⟨fun s hs => ?_, ih _⟩
      exact Nat.lt_of_succ_le (generation_le_of_mem s hs)

theorem eq_of_generation_eq {rules s t : RuleSet} {configs : List Config}
    (hs : s ∈ rules.snapshots configs) (ht : t ∈ rules.snapshots configs)
    (h : s.generation = t.generation) : s = t := by
  have hnumbers : ((rules.snapshots configs).map generation).Nodup :=
    List.pairwise_map.mpr ((pairwise_snapshots rules configs).imp Nat.ne_of_lt)
  exact List.inj_on_of_nodup_map hnumbers hs ht h

end RuleSet

/-! ## Keys -/

namespace RequestKey
variable {a b : Event} {m n : Nat}

theorem ofEvent_eq_iff_asWritten : ofEvent a m = ofEvent b n ↔
    a.name = b.name ∧ a.parameters.asWritten = b.parameters.asWritten ∧ m = n := by
  rw [ofEvent, ofEvent, mk.injEq, ← Attributes.toJson_eq_iff]
  exact and_congr_right fun _ =>
    and_congr_left fun _ => ⟨Json.render_injective, congrArg Json.render⟩

/-- Where all doubles are finite, requests with one key have the same parameters. -/
theorem parameters_eq_of_allFinite
    (ha : ∀ name v, a.parameters.find? name = some v → v.AllFinite)
    (hb : ∀ name v, b.parameters.find? name = some v → v.AllFinite)
    (h : ofEvent a m = ofEvent b n) : a.parameters = b.parameters := by
  obtain ⟨-, hparameters, -⟩ := ofEvent_eq_iff_asWritten.mp h
  rwa [Attributes.asWritten_eq_self ha, Attributes.asWritten_eq_self hb] at hparameters

/-- **Requests share a key just in case they are the same**: by name, by parameters as they
are written, and by the rules that were active when they came, of all that a run of
activations made active. -/
theorem ofEvent_eq_iff {configs : List Config} {s t : RuleSet}
    (hs : s ∈ RuleSet.empty.snapshots configs) (ht : t ∈ RuleSet.empty.snapshots configs)
    (a b : Event) :
    ofEvent a s.generation = ofEvent b t.generation ↔
      a.name = b.name ∧ a.parameters.asWritten = b.parameters.asWritten ∧ s = t := by
  have hrules : s.generation = t.generation ↔ s = t :=
    ⟨RuleSet.eq_of_generation_eq hs ht, congrArg RuleSet.generation⟩
  rw [ofEvent_eq_iff_asWritten, hrules]

/-- A launch with one parameter. -/
def rated (rating : Value) : Event :=
  ⟨"launch", Timestamp.epoch, (∅ : Attributes).insert "rating" rating⟩

/-- A configuration later, or with a double in place of a whole number, the key is another. -/
theorem ofEvent_rated_ne :
    RuleSet.empty ∈ RuleSet.empty.snapshots [⟨[]⟩] ∧
    RuleSet.empty.activate ⟨[]⟩ ∈ RuleSet.empty.snapshots [⟨[]⟩] ∧
    ofEvent (rated (.int 1)) 0 ≠ ofEvent (rated (.int 1)) 1 ∧
    ofEvent (rated (.int 1)) 1 ≠ ofEvent (rated (.float 1)) 1 := by
  have hfirst : RuleSet.empty ∈ RuleSet.empty.snapshots [⟨[]⟩] := List.mem_cons_self
  have hnext : RuleSet.empty.activate ⟨[]⟩ ∈ RuleSet.empty.snapshots [⟨[]⟩] :=
    List.mem_cons_of_mem _ List.mem_cons_self
  refine ⟨hfirst, hnext, fun h => ?_, fun h => ?_⟩
  · obtain ⟨-, -, hrules⟩ := (ofEvent_eq_iff hfirst hnext _ _).mp h
    exact absurd (congrArg RuleSet.generation hrules) (by decide)
  · obtain ⟨-, hparameters, -⟩ := (ofEvent_eq_iff hnext hnext _ _).mp h
    have hrating : some (Value.int 1) = some (.float 1) :=
      congrArg (Dict.find? · "rating") hparameters
    cases hrating

/-- A rating that is undefined and one that is `null` share a key, though they differ. -/
theorem undefined_rating_shares_key :
    RuleSet.empty ∈ RuleSet.empty.snapshots [] ∧
    ofEvent (rated (.float (0.0 / 0.0))) RuleSet.empty.generation =
      ofEvent (rated .null) RuleSet.empty.generation ∧
    (rated (.float (0.0 / 0.0))).parameters ≠ (rated .null).parameters := by
  refine ⟨List.mem_cons_self, ofEvent_eq_iff_asWritten.mpr ⟨rfl, rfl, rfl⟩, fun h => ?_⟩
  have hrating : some (Value.float (0.0 / 0.0)) = some .null :=
    congrArg (Dict.find? · "rating") h
  cases hrating

end RequestKey
end Placement
