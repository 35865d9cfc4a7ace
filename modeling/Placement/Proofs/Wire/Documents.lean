import Mathlib.Algebra.Group.Int.Defs
import Mathlib.Algebra.Group.Nat.Defs
import Placement.Json.Reader
/-! # The documents that are read

A document of this library can hold any whole number, a document that was read holds
**only whole numbers of 64 bits, with or without sign** (`Json.sized_of_parse?`): the reader
makes doubles of larger ones.  It also stores the fields of an object by their names, so **each
name stands once, in ascending order** (`Json.proper_of_parse?`).
-/
namespace Placement.Json

mutual

/-- All whole numbers in the document fit 64 bits, with or without sign. -/
def Sized : Json → Prop
  | .int n => -2 ^ 63 ≤ n ∧ n < 2 ^ 64
  | .array items => SizedItems items
  | .object fields => SizedFields fields
  | _ => True

def SizedItems : List Json → Prop
  | [] => True
  | x :: rest => Sized x ∧ SizedItems rest

def SizedFields : List (String × Json) → Prop
  | [] => True
  | (_, x) :: rest => Sized x ∧ SizedFields rest

end

theorem sizedItems_iff {items : List Json} : SizedItems items ↔ ∀ x ∈ items, x.Sized := by
  induction items with
  | nil => exact ⟨nofun, fun _ => trivial⟩
  | cons x rest ih => rw [SizedItems, ih, List.forall_mem_cons]

theorem sizedFields_iff {fields : List (String × Json)} :
    SizedFields fields ↔ ∀ field ∈ fields, field.2.Sized := by
  induction fields with
  | nil => exact ⟨nofun, fun _ => trivial⟩
  | cons field rest ih => rw [SizedFields, ih, List.forall_mem_cons]

namespace Sized

theorem field? {j x : Json} {name : String} (hj : j.Sized) (h : j.field? name = some x) :
    x.Sized := by
  cases j with
  | object fields => exact sizedFields_iff.mp hj (name, x) (Entries.mem_of_find? h)
  | _ => cases h

theorem ofFields {fields : List (String × Json)} (h : ∀ field ∈ fields, field.2.Sized) :
    (ofFields fields).Sized := by
  refine sizedFields_iff.mpr fun field hfield => ?_
  exact h field (Entries.mem_of_mem_ofList hfield)

/-- A record that came as an array is an object of its items. -/
theorem record? {names : List String} {j r : Json} (hj : j.Sized)
    (h : j.record? names = some r) : r.Sized := by
  cases j with
  | object fields =>
      cases h
      exact hj
  | array items =>
      rw [Json.record?] at h
      split at h
      · cases h
        refine .ofFields fun field hfield => ?_
        exact sizedItems_iff.mp hj _ (List.of_mem_zip hfield).2
      · cases h
  | _ => cases h

theorem part? {names : List String} {name : String} {j : Json}
    {x : { x : Json // sizeOf x < sizeOf j }} (hj : j.Sized) (h : j.part? names name = some x) :
    x.val.Sized := by
  obtain ⟨r, hr, hx⟩ := Option.bind_eq_some_iff.mp (field?_of_part? h)
  exact (hj.record? hr).field? hx

end Sized

mutual

/-- The names in every object of the document ascend. -/
def Ordered : Json → Prop
  | .array items => OrderedItems items
  | .object fields => Entries.Ascending fields ∧ OrderedFields fields
  | _ => True

def OrderedItems : List Json → Prop
  | [] => True
  | x :: rest => Ordered x ∧ OrderedItems rest

def OrderedFields : List (String × Json) → Prop
  | [] => True
  | (_, x) :: rest => Ordered x ∧ OrderedFields rest

end

theorem orderedItems_iff {items : List Json} : OrderedItems items ↔ ∀ x ∈ items, x.Ordered := by
  induction items with
  | nil => exact ⟨nofun, fun _ => trivial⟩
  | cons x rest ih => rw [OrderedItems, ih, List.forall_mem_cons]

theorem orderedFields_iff {fields : List (String × Json)} :
    OrderedFields fields ↔ ∀ field ∈ fields, field.2.Ordered := by
  induction fields with
  | nil => exact ⟨nofun, fun _ => trivial⟩
  | cons field rest ih => rw [OrderedFields, ih, List.forall_mem_cons]

/-- **A document that can be read from a text**: each name stands once in its object, in
ascending order, and whole numbers fit 64 bits. -/
structure Proper (j : Json) : Prop where
  ordered : j.Ordered
  sized : j.Sized

/-! ## Reading -/

/-- A property that documents have from their parts, objects once their fields are stored by
name. -/
structure Hereditary (P : Json → Prop) : Prop where
  null : P .null
  bool : ∀ b, P (.bool b)
  int : ∀ n, -2 ^ 63 ≤ n → n < 2 ^ 64 → P (.int n)
  float : ∀ x, P (.float x)
  string : ∀ s, P (.string s)
  array : ∀ items, (∀ x ∈ items, P x) → P (.array items)
  object : ∀ fields, (∀ field ∈ fields, P field.2) → P (ofFields fields)

namespace Hereditary
open Reader
variable {P : Json → Prop}

theorem of_finite? (hP : Hereditary P) {x : Float} {j : Json}
    (h : ofWhole.finite? x = some j) : P j := by
  rw [ofWhole.finite?] at h
  split at h
  · cases h
    exact hP.float _
  · cases h

theorem of_ofWhole (hP : Hereditary P) {negative : Bool} {digits : List Char} {j : Json}
    (h : ofWhole negative digits = some j) : P j := by
  rw [ofWhole] at h
  split at h
  · split at h
    · exact hP.of_finite? h
    · rename_i hsize
      cases h
      exact hP.int _ (by omega) (by omega)
  · split at h
    · rename_i hsize
      cases h
      exact hP.int _ (by omega) (by omega)
    · exact hP.of_finite? h

/-- A number with a power of ten or a fraction is a double, any other is whole. -/
theorem of_number? (hP : Hereditary P) {text rest : List Char} {j : Json}
    (h : number? text = some (j, rest)) : P j := by
  have hdouble : ∀ {x : Float} {tail : List Char},
      ((ofWhole.finite? x).bind fun j => some (j, tail)) = some (j, rest) → P j := by
    intro x tail h
    obtain ⟨d, hd, h⟩ := Option.bind_eq_some_iff.mp h
    cases h
    exact hP.of_finite? hd
  have hwhole : ∀ {negative : Bool} {digits tail : List Char},
      ((ofWhole negative digits).bind fun j => some (j, tail)) = some (j, rest) → P j := by
    intro negative digits tail h
    obtain ⟨d, hd, h⟩ := Option.bind_eq_some_iff.mp h
    cases h
    exact hP.of_ofWhole hd
  unfold number? at h
  dsimp only [Option.bind_eq_bind, Option.bind_some, Option.bind_none] at h
  have hmarked : ∀ {marked : Bool} {a b : Option (Json × List Char)},
      (if marked = true then a else b) = some (j, rest) →
        a = some (j, rest) ∨ b = some (j, rest) := by
    intro marked a b h
    cases marked with
    | true => exact .inl h
    | false => exact .inr h
  -- with a sign and without one alike
  split at h
  all_goals
    split at h
    · cases h
    · split at h
      · split at h
        · cases h
        · rcases hmarked h with h | h
          · obtain ⟨power, -, h⟩ := Option.bind_eq_some_iff.mp h
            exact hdouble h
          · exact hdouble h
      · rcases hmarked h with h | h
        · obtain ⟨power, -, h⟩ := Option.bind_eq_some_iff.mp h
          exact hdouble h
        · exact hwhole h

mutual

theorem of_value? (hP : Hereditary P) :
    ∀ (fuel : Nat) {text rest : List Char} {j : Json}, value? fuel text = some (j, rest) → P j
  | 0, _, _, _, h => nomatch h
  | fuel + 1, text, rest, j, h => by
      rw [value?] at h
      split at h
      · cases h
        exact hP.null
      · cases h
        exact hP.bool true
      · cases h
        exact hP.bool false
      · obtain ⟨⟨s, tail⟩, -, h⟩ := Option.map_eq_some_iff.mp h
        cases h
        exact hP.string s
      · split at h
        · cases h
          exact hP.array [] nofun
        · obtain ⟨⟨xs, tail⟩, hxs, h⟩ := Option.map_eq_some_iff.mp h
          cases h
          exact hP.array xs (hP.of_items? fuel hxs)
      · split at h
        · cases h
          exact hP.object [] nofun
        · obtain ⟨⟨fs, tail⟩, hfs, h⟩ := Option.map_eq_some_iff.mp h
          cases h
          exact hP.object fs (hP.of_fields? fuel hfs)
      · exact hP.of_number? h

theorem of_items? (hP : Hereditary P) :
    ∀ (fuel : Nat) {text rest : List Char} {xs : List Json},
      items? fuel text = some (xs, rest) → ∀ x ∈ xs, P x
  | 0, _, _, _, h => nomatch h
  | fuel + 1, text, rest, xs, h => by
      rw [items?] at h
      obtain ⟨⟨x, tail⟩, hx, h⟩ := Option.bind_eq_some_iff.mp h
      dsimp only at h
      split at h
      · obtain ⟨⟨more, tail⟩, hmore, h⟩ := Option.bind_eq_some_iff.mp h
        cases h
        exact List.forall_mem_cons.mpr ⟨hP.of_value? fuel hx, hP.of_items? fuel hmore⟩
      · cases h
        exact List.forall_mem_singleton.mpr (hP.of_value? fuel hx)
      · cases h

theorem of_fields? (hP : Hereditary P) :
    ∀ (fuel : Nat) {text rest : List Char} {fs : List (String × Json)},
      fields? fuel text = some (fs, rest) → ∀ field ∈ fs, P field.2
  | 0, _, _, _, h => nomatch h
  | fuel + 1, text, rest, fs, h => by
      rw [fields?] at h
      split at h
      · obtain ⟨⟨name, tail⟩, -, h⟩ := Option.bind_eq_some_iff.mp h
        dsimp only at h
        split at h
        · obtain ⟨⟨x, tail⟩, hx, h⟩ := Option.bind_eq_some_iff.mp h
          dsimp only at h
          split at h
          · obtain ⟨⟨more, tail⟩, hmore, h⟩ := Option.bind_eq_some_iff.mp h
            cases h
            exact List.forall_mem_cons.mpr ⟨hP.of_value? fuel hx, hP.of_fields? fuel hmore⟩
          · cases h
            exact List.forall_mem_singleton.mpr (hP.of_value? fuel hx)
          · cases h
        · cases h
      · cases h

end

/-- **What documents have from their parts, every document has that is read.** -/
theorem of_parse? (hP : Hereditary P) {text : String} {j : Json} (h : parse? text = some j) :
    P j := by
  rw [parse?] at h
  split at h
  · rename_i found rest hread
    split at h
    · cases h
      exact hP.of_value? _ hread
    · cases h
  · cases h

end Hereditary

theorem hereditary_sized : Hereditary Sized where
  null := trivial
  bool _ := trivial
  int _ hlow hhigh := ⟨hlow, hhigh⟩
  float _ := trivial
  string _ := trivial
  array _ h := sizedItems_iff.mpr h
  object _ h := .ofFields h

theorem hereditary_ordered : Hereditary Ordered where
  null := trivial
  bool _ := trivial
  int _ _ _ := trivial
  float _ := trivial
  string _ := trivial
  array _ h := orderedItems_iff.mpr h
  object fields h := by
    refine ⟨Entries.ascending_ofList fields, orderedFields_iff.mpr fun field hfield => ?_⟩
    exact h field (Entries.mem_of_mem_ofList hfield)

theorem proper_of_parse? {text : String} {j : Json} (h : parse? text = some j) : j.Proper :=
  ⟨hereditary_ordered.of_parse? h, hereditary_sized.of_parse? h⟩

end Placement.Json
