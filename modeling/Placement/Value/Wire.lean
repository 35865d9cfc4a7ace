import Placement.Value
import Placement.Json
/-! # Values as JSON

A whole number that fits 64 bits stays a whole number and a double stays a
double.  A larger whole number becomes the nearest double.  Writing a value that
is not a finite double loses it: it is written as `null`.

There are two readers.  `Value.ofJson` follows the shape of the document;
`Value.decode` tries the kinds in order and takes the first that fits.
-/
namespace Placement
namespace Value

mutual

/-- The value of a document. -/
def ofJson : Json → Value
  | .null => .null
  | .bool b => .bool b
  | .int n =>
      match int64? n with
      | some i => .int i
      | none => .float (Float.ofInt n)
  | .float x => .float x.val
  | .string s => .string s
  | .array items => .list (ofJsonItems items)
  | .object fields => .map (ofJsonFields fields)

def ofJsonItems : List Json → List Value
  | [] => []
  | item :: rest => ofJson item :: ofJsonItems rest

def ofJsonFields : List (String × Json) → List (String × Value)
  | [] => []
  | (name, x) :: rest => (name, ofJson x) :: ofJsonFields rest

end

mutual

/-- A value as a document. -/
def toJson : Value → Json
  | .null => .null
  | .bool b => .bool b
  | .int n => .int n.toInt
  | .float x => Json.ofFloat x
  | .string s => .string s
  | .list items => .array (toJsonItems items)
  | .map entries => .object (toJsonEntries entries)

def toJsonItems : List Value → List Json
  | [] => []
  | v :: rest => toJson v :: toJsonItems rest

def toJsonEntries : List (String × Value) → List (String × Json)
  | [] => []
  | (key, v) :: rest => (key, toJson v) :: toJsonEntries rest

end

/-! ## Reading by trial

Each kind has a reader of its own that accepts the documents of that kind. -/

/-- The readers of the kinds that hold no other values, in the order they are tried. -/
def scalars : List (Json → Option Value) :=
  [ fun | .null => some .null | _ => none,
    fun | .bool b => some (.bool b) | _ => none,
    fun | .int n => (int64? n).map .int | _ => none,
    fun
      | .int n => some (.float (Float.ofInt n))
      | .float x => some (.float x.val)
      | _ => none,
    fun | .string s => some (.string s) | _ => none ]

/-- The first kind without inner values that accepts the document. -/
def decodeScalar? (j : Json) : Option Value := scalars.findSome? fun read => read j

mutual

/-- The first kind, in the order of the constructors, that accepts the document. -/
def decode? : Json → Option Value
  | .array items =>
      match decodeScalar? (.array items) with
      | some v => some v
      | none => (decodeItems? items).map .list
  | .object fields =>
      match decodeScalar? (.object fields) with
      | some v => some v
      | none => (decodeFields? fields []).map .map
  | j => decodeScalar? j

def decodeItems? : List Json → Option (List Value)
  | [] => some []
  | item :: rest =>
      match decode? item, decodeItems? rest with
      | some v, some vs => some (v :: vs)
      | _, _ => none

/-- The fields are stored one by one, so a name that comes twice keeps its last value. -/
def decodeFields? : List (String × Json) → List (String × Value) → Option (List (String × Value))
  | [], stored => some stored
  | (name, x) :: rest, stored =>
      match decode? x with
      | some v => decodeFields? rest (Entries.put name v stored)
      | none => none

end

/-! ## What comes back -/

theorem int64?_toInt (n : Int64) : int64? n.toInt = some n := by
  have hlow := Int64.le_toInt n
  have hhigh := Int64.toInt_lt n
  rw [int64?, if_pos ⟨by omega, by omega⟩, Int64.ofInt_toInt]

mutual

/-- A value as it comes back from its document: doubles that are not finite are lost, and
maps are put into order. -/
def stored : Value → Value
  | .float x => if x.isFinite = true then .float x else .null
  | .list items => .list (storedItems items)
  | .map entries => .map (Entries.ofList (storedEntries entries))
  | .null => .null
  | .bool b => .bool b
  | .int n => .int n
  | .string s => .string s

def storedItems : List Value → List Value
  | [] => []
  | v :: rest => stored v :: storedItems rest

def storedEntries : List (String × Value) → List (String × Value)
  | [] => []
  | (key, v) :: rest => (key, stored v) :: storedEntries rest

end

theorem storedEntries_eq_map (entries : List (String × Value)) :
    storedEntries entries = entries.map fun entry => (entry.1, entry.2.stored) := by
  induction entries with
  | nil => rfl
  | cons entry rest ih => rw [storedEntries, ih, List.map_cons]

theorem toJsonEntries_eq_map (entries : List (String × Value)) :
    toJsonEntries entries = entries.map fun entry => (entry.1, entry.2.toJson) := by
  induction entries with
  | nil => rfl
  | cons entry rest ih => rw [toJsonEntries, ih, List.map_cons]

mutual

/-- **Every value can be read back**, as what is stored of it. -/
theorem decode?_toJson : ∀ v : Value, decode? v.toJson = some v.stored
  | .null => rfl
  | .bool _ => rfl
  | .int n => by simp [toJson, decode?, decodeScalar?, scalars, int64?_toInt, stored]
  | .float x => by
      by_cases hx : x.isFinite = true
      · simp [toJson, Json.ofFloat, hx, decode?, decodeScalar?, scalars, stored]
      · simp [toJson, Json.ofFloat, hx, decode?, decodeScalar?, scalars, stored]
  | .string _ => rfl
  | .list items => by
      rw [toJson, decode?, decodeItems?_toJsonItems items]
      rfl
  | .map entries => by
      rw [toJson, decode?, decodeFields?_toJsonEntries entries []]
      rfl

theorem decodeItems?_toJsonItems : ∀ items : List Value,
    decodeItems? (toJsonItems items) = some (storedItems items)
  | [] => rfl
  | v :: rest => by
      rw [toJsonItems, decodeItems?, decode?_toJson v, decodeItems?_toJsonItems rest]
      rfl

theorem decodeFields?_toJsonEntries : ∀ (entries read : List (String × Value)),
    decodeFields? (toJsonEntries entries) read =
      some ((storedEntries entries).foldl (fun acc entry => Entries.put entry.1 entry.2 acc) read)
  | [], _ => rfl
  | (key, v) :: rest, read => by
      rw [toJsonEntries, decodeFields?, decode?_toJson v]
      exact decodeFields?_toJsonEntries rest _

end

mutual

/-- What is stored of a value stays as it is when it is stored again. -/
theorem stored_stored : ∀ v : Value, v.stored.stored = v.stored
  | .null => rfl
  | .bool _ => rfl
  | .int _ => rfl
  | .float x => by
      by_cases hx : x.isFinite = true
      · simp [stored, hx]
      · simp [stored, hx]
  | .string _ => rfl
  | .list items => by rw [stored, stored, storedItems_storedItems items]
  | .map entries => by
      have hentries := storedEntries_storedEntries entries
      rw [storedEntries_eq_map] at hentries
      rw [stored, stored, storedEntries_eq_map, ← Entries.ofList_map, hentries,
        Entries.ofList_eq_self (Entries.ascending_ofList _)]

theorem storedItems_storedItems : ∀ items : List Value,
    storedItems (storedItems items) = storedItems items
  | [] => rfl
  | v :: rest => by
      rw [storedItems, storedItems, stored_stored v, storedItems_storedItems rest]

theorem storedEntries_storedEntries : ∀ entries : List (String × Value),
    storedEntries (storedEntries entries) = storedEntries entries
  | [] => rfl
  | (key, v) :: rest => by
      rw [storedEntries, storedEntries, stored_stored v, storedEntries_storedEntries rest]

end
end Value

namespace Attributes

/-- Attributes as a document. -/
def toJson (attributes : Attributes) : Json := Json.ofDict Value.toJson attributes

/-- Attributes from a document, which has to be an object. -/
def decode? : Json → Option Attributes
  | .object fields =>
      (Value.decodeFields? fields []).map fun entries => Dict.ofList entries
  | _ => none

/-- **Attributes can be read back**, as what is stored of each. -/
theorem decode?_toJson (attributes : Attributes) :
    decode? attributes.toJson = some (Dict.map Value.stored attributes) := by
  have hread := Value.decodeFields?_toJsonEntries attributes.entries []
  rw [Value.toJsonEntries_eq_map, Value.storedEntries_eq_map] at hread
  have hlist : Entries.ofList (Dict.map Value.stored attributes).entries =
      (Dict.map Value.stored attributes).entries :=
    Entries.ofList_eq_self (Dict.map Value.stored attributes).ascending
  show (Value.decodeFields? (attributes.entries.map fun entry => (entry.1, entry.2.toJson))
    []).map Dict.ofList = _
  rw [hread, Option.map_some]
  exact congrArg some ((congrArg Dict.ofList hlist).trans (Dict.ofList_entries _))

theorem map_stored_map_stored (attributes : Attributes) :
    Dict.map Value.stored (Dict.map Value.stored attributes) =
      Dict.map Value.stored attributes := by
  have hstored : Value.stored ∘ Value.stored = Value.stored := funext Value.stored_stored
  rw [Dict.map_map, hstored]

end Attributes
end Placement
