import Placement.Dict
/-! # JSON documents

Rules, stored state and event parameters travel as JSON.  A document here keeps
**the difference between whole numbers and doubles**: `1` and `1.0` are two
documents, because they become two values.  A double in a document is always
finite, so writing a double that is not finite gives `null` (`Json.ofFloat`).

A record is written as an object.  It may also come as the array of its fields, in their order
(`Json.record?`).
-/
namespace Placement

/-- A double that is neither infinite nor undefined. -/
structure FiniteFloat where
  val : Float
  finite : val.isFinite = true
  deriving DecidableEq

/-- A JSON document.  The fields of an object that was read stand in ascending
order, each name once. -/
inductive Json
  | null
  | bool (b : Bool)
  | int (n : Int)
  | float (x : FiniteFloat)
  | string (s : String)
  | array (items : List Json)
  | object (fields : List (String × Json))

namespace Json

instance : Inhabited Json := ⟨.null⟩

/-- A double as a document. -/
def ofFloat (x : Float) : Json := if h : x.isFinite = true then .float ⟨x, h⟩ else .null

/-- An absent value is written as `null`. -/
def ofOption {α : Type} (encode : α → Json) : Option α → Json
  | none => .null
  | some x => encode x

/-- The object of some fields in any order; of two with one name the later stays. -/
def ofFields (fields : List (String × Json)) : Json := .object (Entries.ofList fields)

/-- The object of a dictionary. -/
def ofDict {α : Type} (encode : α → Json) (d : Dict α) : Json :=
  .object (d.map encode).entries

/-- The array of a list. -/
def ofList {α : Type} (encode : α → Json) (xs : List α) : Json := .array (xs.map encode)

/-- The field `name` of an object; nothing for other documents. -/
def field? (name : String) : Json → Option Json
  | .object fields => Entries.find? name fields
  | _ => none

/-- **A record as an object.**  The fields may also come without their names, as an array in the
order of `names`; then those at the end may be missing. -/
def record? (names : List String) : Json → Option Json
  | .object fields => some (.object fields)
  | .array items => if items.length ≤ names.length then some (ofFields (names.zip items)) else none
  | _ => none

/-- What is written as an object is an object. -/
@[simp] theorem record?_ofFields (names : List String) (fields : List (String × Json)) :
    (ofFields fields).record? names = some (ofFields fields) := rfl

/-- A field of a record is a field of the object, or an item of the array. -/
theorem field?_record? {names : List String} {name : String} {j x : Json}
    (h : (j.record? names).bind (field? name) = some x) :
    (∃ fields, j = .object fields ∧ Entries.find? name fields = some x) ∨
      ∃ items, j = .array items ∧ x ∈ items := by
  obtain ⟨r, hr, h⟩ := Option.bind_eq_some_iff.mp h
  cases j with
  | object fields =>
      cases hr
      exact .inl ⟨fields, rfl, h⟩
  | array items =>
      rw [record?] at hr
      split at hr
      · cases hr
        have hmem := Entries.mem_of_mem_ofList (Entries.mem_of_find? h)
        exact .inr ⟨items, rfl, (List.of_mem_zip hmem).2⟩
      · cases hr
  | _ => cases hr

theorem sizeOf_field?_lt {names : List String} {name : String} {j x : Json}
    (h : (j.record? names).bind (field? name) = some x) : sizeOf x < sizeOf j := by
  rcases field?_record? h with ⟨fields, rfl, hfind⟩ | ⟨items, rfl, hmem⟩
  · have hsize := List.sizeOf_lt_of_mem (Entries.mem_of_find? hfind)
    simp only [object.sizeOf_spec, Prod.mk.sizeOf_spec] at hsize ⊢
    omega
  · have hsize := List.sizeOf_lt_of_mem hmem
    rw [array.sizeOf_spec]
    omega

/-- The field `name` of a record, which is smaller than the record. -/
def part? (names : List String) (j : Json) (name : String) :
    Option { x : Json // sizeOf x < sizeOf j } :=
  match h : (j.record? names).bind (field? name) with
  | some x => some ⟨x, sizeOf_field?_lt h⟩
  | none => none

/-- The part under a name is the field of that name. -/
theorem field?_of_part? {names : List String} {name : String} {j : Json}
    {x : { x : Json // sizeOf x < sizeOf j }} (h : j.part? names name = some x) :
    (j.record? names).bind (field? name) = some x.val := by
  rw [part?] at h
  split at h
  · rename_i y hy
    cases h
    exact hy
  · cases h

theorem part?_of_field? {names : List String} {name : String} {j x : Json}
    (h : (j.record? names).bind (field? name) = some x) :
    ∃ hx, j.part? names name = some ⟨x, hx⟩ := by
  refine ⟨sizeOf_field?_lt h, ?_⟩
  rw [part?]
  split
  · rename_i y hy
    have hxy : y = x := Option.some.inj (hy.symm.trans h)
    subst hxy
    rfl
  · rename_i hnone
    exact absurd (hnone.symm.trans h) nofun

theorem part?_ofFields {fields : List (String × Json)} {name : String} {x : Json}
    (names : List String) (h : (ofFields fields).field? name = some x) :
    ∃ hx, (ofFields fields).part? names name = some ⟨x, hx⟩ :=
  part?_of_field? (Option.bind_eq_some_iff.mpr ⟨_, record?_ofFields names fields, h⟩)

/-- **A field of an object made from a list**: the last one of that name. -/
theorem field?_ofFields (fields : List (String × Json)) (name : String) :
    (ofFields fields).field? name =
      (fields.reverse.find? fun field => field.1 == name).map Prod.snd := by
  rw [ofFields, field?, Entries.find?_ofList]

/-- A text. -/
def string? : Json → Option String
  | .string s => some s
  | _ => none

/-- A name out of a fixed list: a text, or an object whose only field has that name
and holds nothing. -/
def name? : Json → Option String
  | .string s => some s
  | .object [(name, .null)] => some name
  | _ => none

/-! ## Reading parts of documents -/

section
variable {α : Type} (decode : Json → Option α)

/-- A field that has to be there. -/
def required? (name : String) (j : Json) : Option α := (j.field? name).bind decode

/-- A field that may be missing or `null`. -/
def optional? (name : String) (j : Json) : Option (Option α) :=
  match j.field? name with
  | none => some none
  | some .null => some none
  | some x => (decode x).map some

/-- A field that may be missing, with the value it has then. -/
def withDefault? (absent : α) (name : String) (j : Json) : Option α :=
  match j.field? name with
  | none => some absent
  | some x => decode x

/-- The parts of an array. -/
def list? : Json → Option (List α)
  | .array items => items.mapM decode
  | _ => none

/-- The fields of an object. -/
def dict? : Json → Option (Dict α)
  | .object fields =>
      (fields.mapM fun (field : String × Json) =>
        (decode field.2).map fun value => (field.1, value)).map Dict.ofList
  | _ => none

end

/-- A truth value. -/
def bool? : Json → Option Bool
  | .bool b => some b
  | _ => none

/-- A number of 32 bits without sign. -/
def nat32? : Json → Option Nat
  | .int n => if 0 ≤ n ∧ n < 0x100000000 then some n.toNat else none
  | _ => none

theorem nat32?_natCast {n : Nat} (h : n < 0x100000000) : nat32? (.int n) = some n := by
  have hn : (0 : Int) ≤ n ∧ (n : Int) < 0x100000000 := ⟨Int.natCast_nonneg n, by omega⟩
  rw [nat32?, if_pos hn, Int.toNat_natCast]

/-- **A list is read back as it was written**, if this holds of its members. -/
theorem list?_ofList {α : Type} {encode : α → Json} {decode : Json → Option α} {xs : List α}
    (h : ∀ x ∈ xs, decode (encode x) = some x) : (ofList encode xs).list? decode = some xs := by
  rw [ofList, list?]
  induction xs with
  | nil => rfl
  | cons x rest ih =>
      have hrest := ih fun y hy => h y (List.mem_cons_of_mem x hy)
      rw [List.map_cons, List.mapM_cons, h x List.mem_cons_self, hrest]
      rfl

/-- **A dictionary is read back as it was written**, if this holds of what it stores. -/
theorem dict?_ofDict {α : Type} {encode : α → Json} {decode : Json → Option α}
    (h : ∀ x, decode (encode x) = some x) (d : Dict α) :
    (ofDict encode d).dict? decode = some d := by
  obtain ⟨entries, hasc⟩ := d
  have hread : (entries.map fun entry => (entry.1, encode entry.2)).mapM
      (fun field : String × Json => (decode field.2).map fun value => (field.1, value)) =
        some entries := by
    clear hasc
    induction entries with
    | nil => rfl
    | cons entry rest ih =>
        rw [List.map_cons, List.mapM_cons, ih]
        simp [h]
  simp only [ofDict, Dict.map, dict?, hread, Option.map_some, Dict.ofList,
    Entries.ofList_eq_self hasc]

end Json

/-- Why a document cannot be read as what it should be. -/
inductive DecodeFault
  /-- It has another form. -/
  | malformed
  /-- It is a number that is no seed. -/
  | seedOutOfRange (value : Nat)
  deriving DecidableEq

namespace DecodeFault

/-- The text of a fault. -/
def message : DecodeFault → String
  | .malformed => "unexpected document"
  | .seedOutOfRange value => "seed " ++ toString value ++ " is out of range"

/-- Something that is missing if the document has another form. -/
def ofOption {α : Type} : Option α → Except DecodeFault α
  | some x => .ok x
  | none => .error .malformed

end DecodeFault
end Placement
