import Placement.Proofs.Dispatch.Keys
import Placement.Proofs.Wire.Documents
import Placement.Proofs.Wire.Doubles
/-! # Two readers of values

Attributes are read from storage by trial (`Value.decode?`), parameters of events by the shape
of the document (`Value.ofJson`).  **Both read the same value of every document**, at any depth,
and they undo writing (`Value.readers_agree`).

In the other direction one thing changes: a whole number that 64 bits with sign cannot hold has
become a double (`Json.asRead`).
-/
namespace Placement

namespace Json

mutual

/-- A document as its value tells it: a whole number that 64 bits with sign cannot hold is the
nearest double. -/
def asRead : Json → Json
  | .int n =>
      match Value.int64? n with
      | some _ => .int n
      | none => ofFloat (Float.ofInt n)
  | .array items => .array (asReadItems items)
  | .object fields => .object (asReadFields fields)
  | .null => .null
  | .bool b => .bool b
  | .float x => .float x
  | .string s => .string s

def asReadItems : List Json → List Json
  | [] => []
  | x :: rest => asRead x :: asReadItems rest

def asReadFields : List (String × Json) → List (String × Json)
  | [] => []
  | (name, x) :: rest => (name, asRead x) :: asReadFields rest

end

theorem ofFloat_of_finite {x : Float} (h : x.isFinite = true) : ofFloat x = .float ⟨x, h⟩ :=
  dif_pos h

/-- A whole number that 64 bits without sign hold is read as a double, not lost. -/
theorem asRead_int_of_large {n : Int} (h : (Json.int n).Sized) (hlarge : Value.int64? n = none) :
    ∃ x : FiniteFloat, x.val = Float.ofInt n ∧ (Json.int n).asRead = .float x := by
  refine ⟨⟨Float.ofInt n, isFinite_ofInt h.1 h.2⟩, rfl, ?_⟩
  rw [asRead, hlarge]
  exact ofFloat_of_finite _

end Json

namespace Value
open Json

theorem toInt_of_int64? {n : Int} {i : Int64} (h : int64? n = some i) : i.toInt = n := by
  rw [int64?] at h
  split at h
  · rename_i hfits
    cases h
    exact Int64.toInt_ofInt_of_le hfits.1 hfits.2
  · cases h

theorem ofJsonFields_eq_map (fields : List (String × Json)) :
    ofJsonFields fields = fields.map fun field => (field.1, ofJson field.2) := by
  induction fields with
  | nil => rfl
  | cons field rest ih => rw [ofJsonFields, ih, List.map_cons]

/-! ## Reading by trial and by shape -/

mutual

/-- **The first kind that fits is the kind of the document.** -/
theorem decode?_of_ordered : ∀ {j : Json}, j.Ordered → decode? j = some (ofJson j)
  | .null, _ => rfl
  | .bool _, _ => rfl
  | .int n, _ => by
      cases hn : int64? n <;> simp [decode?, decodeScalar?, scalars, ofJson, hn]
  | .float _, _ => rfl
  | .string _, _ => rfl
  | .array items, h => by
      rw [decode?, decodeItems?_of_ordered h]
      rfl
  | .object fields, h => by
      -- The names ascend, so storing the fields by name keeps their list as it is.
      have hascending : Entries.Ascending (ofJsonFields fields) := by
        rw [ofJsonFields_eq_map]
        exact Entries.ascending_map _ h.1
      have hread := decodeFields?_of_ordered h.2 []
      have hstored := Entries.ofList_eq_self hascending
      rw [decode?, hread]
      exact congrArg (fun entries => some (Value.map entries)) hstored

theorem decodeItems?_of_ordered : ∀ {items : List Json}, OrderedItems items →
    decodeItems? items = some (ofJsonItems items)
  | [], _ => rfl
  | _ :: _, h => by
      rw [decodeItems?, decode?_of_ordered h.1, decodeItems?_of_ordered h.2]
      rfl

theorem decodeFields?_of_ordered : ∀ {fields : List (String × Json)}, OrderedFields fields →
    ∀ read : List (String × Value), decodeFields? fields read =
      some ((ofJsonFields fields).foldl (fun acc entry => Entries.put entry.1 entry.2 acc) read)
  | [], _, _ => rfl
  | (name, x) :: _, h, read => by
      rw [decodeFields?, decode?_of_ordered h.1]
      exact decodeFields?_of_ordered h.2 _

end

/-! ## Writing what was read -/

mutual

/-- **The value of a document tells it as it was read.** -/
theorem toJson_ofJson : ∀ j : Json, (ofJson j).toJson = j.asRead
  | .null => rfl
  | .bool _ => rfl
  | .int n => by
      rw [ofJson, asRead]
      cases hn : int64? n with
      | some i =>
          rw [← toInt_of_int64? hn]
          rfl
      | none => rfl
  | .float x => ofFloat_of_finite x.finite
  | .string _ => rfl
  | .array items => by rw [ofJson, toJson, toJsonItems_ofJsonItems items, asRead]
  | .object fields => by rw [ofJson, toJson, toJsonEntries_ofJsonFields fields, asRead]

theorem toJsonItems_ofJsonItems : ∀ items : List Json,
    toJsonItems (ofJsonItems items) = asReadItems items
  | [] => rfl
  | x :: rest => by
      rw [ofJsonItems, toJsonItems, toJson_ofJson x, toJsonItems_ofJsonItems rest, asReadItems]

theorem toJsonEntries_ofJsonFields : ∀ fields : List (String × Json),
    toJsonEntries (ofJsonFields fields) = asReadFields fields
  | [] => rfl
  | (name, x) :: rest => by
      rw [ofJsonFields, toJsonEntries, toJson_ofJson x, toJsonEntries_ofJsonFields rest,
        asReadFields]

end

/-! ## Reading what was written -/

mutual

theorem proper_toJson : ∀ {v : Value}, v.Canonical → v.toJson.Proper
  | .null, _ | .bool _, _ | .string _, _ => ⟨trivial, trivial⟩
  | .int n, _ => by
      have hlow := n.le_toInt
      have hhigh := n.toInt_lt
      exact ⟨trivial, ⟨by omega, by omega⟩⟩
  | .float x, _ => by
      rw [toJson, ofFloat]
      split <;> exact ⟨trivial, trivial⟩
  | .list _, h => by
      have hitems := proper_toJsonItems h
      exact ⟨orderedItems_iff.mpr fun x hx => (hitems x hx).ordered,
        sizedItems_iff.mpr fun x hx => (hitems x hx).sized⟩
  | .map entries, h => by
      have hentries := proper_toJsonEntries h.2
      have hascending : Entries.Ascending (toJsonEntries entries) := by
        rw [toJsonEntries_eq_map]
        exact Entries.ascending_map _ h.1
      have hordered := orderedFields_iff.mpr fun field hfield => (hentries field hfield).ordered
      have hsized := sizedFields_iff.mpr fun field hfield => (hentries field hfield).sized
      exact ⟨⟨hascending, hordered⟩, hsized⟩

theorem proper_toJsonItems : ∀ {items : List Value}, CanonicalItems items →
    ∀ x ∈ toJsonItems items, x.Proper
  | [], _ => nofun
  | _ :: _, h => List.forall_mem_cons.mpr ⟨proper_toJson h.1, proper_toJsonItems h.2⟩

theorem proper_toJsonEntries : ∀ {entries : List (String × Value)}, CanonicalEntries entries →
    ∀ field ∈ toJsonEntries entries, field.2.Proper
  | [], _ => nofun
  | _ :: _, h => List.forall_mem_cons.mpr ⟨proper_toJson h.1, proper_toJsonEntries h.2⟩

end

/-- **The two readers agree and undo writing.**  Of every document both read the same value,
and this is written as the document with its large whole numbers as doubles, which are finite;
every value without infinite and undefined doubles is read back as it was. -/
theorem readers_agree :
    (∀ j : Json, j.Proper → decode? j = some (ofJson j) ∧ (ofJson j).toJson = j.asRead) ∧
    (∀ n : Int, (Json.int n).Proper → int64? n = none →
      ∃ x : FiniteFloat, x.val = Float.ofInt n ∧ (Json.int n).asRead = .float x) ∧
    ∀ v : Value, v.Canonical → v.AllFinite →
      ofJson v.toJson = v ∧ decode? v.toJson = some v := by
  refine ⟨fun j hj => ⟨decode?_of_ordered hj.ordered, toJson_ofJson j⟩,
    fun n hn hlarge => asRead_int_of_large hn.sized hlarge, fun v hv hfinite => ?_⟩
  have hback : ofJson v.toJson = v := (ofJson_toJson v).trans (asWritten_eq_self hfinite)
  refine ⟨hback, ?_⟩
  rw [decode?_of_ordered (proper_toJson hv).ordered, hback]

/-- The first whole number beyond 64 bits with sign inside an object, and a value that holds one
as a whole number and as a double, and a zero with a sign. -/
theorem readers_agree_counters :
    decode? (.object [("a", .array [.int 1, .int (2 ^ 63)]), ("b", .null)]) =
      some (ofJson (.object [("a", .array [.int 1, .int (2 ^ 63)]), ("b", .null)])) ∧
    (ofJson (.object [("a", .array [.int 1, .int (2 ^ 63)]), ("b", .null)])).toJson =
      .object [("a", .array [.int 1, (Json.int (2 ^ 63)).asRead]), ("b", .null)] ∧
    (∃ x : FiniteFloat, x.val = Float.ofInt (2 ^ 63) ∧ (Json.int (2 ^ 63)).asRead = .float x) ∧
    ofJson (toJson (.map [("a", .list [.int 1, .float 1.0]), ("b", .float (-0.0))])) =
      .map [("a", .list [.int 1, .float 1.0]), ("b", .float (-0.0))] ∧
    decode? (toJson (.map [("a", .list [.int 1, .float 1.0]), ("b", .float (-0.0))])) =
      some (.map [("a", .list [.int 1, .float 1.0]), ("b", .float (-0.0))]) := by
  obtain ⟨hdocuments, hlarge, hvalues⟩ := readers_agree
  have hnames : "a" < "b" := by decide +kernel
  obtain ⟨hread, hwritten⟩ := hdocuments
    (.object [("a", .array [.int 1, .int (2 ^ 63)]), ("b", .null)])
    { ordered := ⟨List.pairwise_pair.mpr hnames, ⟨trivial, trivial, trivial⟩, trivial, trivial⟩
      sized := ⟨⟨⟨by decide, by decide⟩, ⟨by decide, by decide⟩, trivial⟩, trivial, trivial⟩ }
  obtain ⟨hback, hstored⟩ := hvalues
    (.map [("a", .list [.int 1, .float 1.0]), ("b", .float (-0.0))])
    ⟨List.pairwise_pair.mpr hnames, ⟨trivial, trivial, trivial⟩, trivial, trivial⟩
    ⟨⟨trivial, (by decide +kernel : (1.0 : Float).isFinite = true), trivial⟩,
      (by decide +kernel : (-0.0 : Float).isFinite = true), trivial⟩
  exact ⟨hread, hwritten, hlarge _ ⟨trivial, by decide, by decide⟩ (if_neg (by decide)), hback,
    hstored⟩

end Value
end Placement
