import Placement.Proofs.Wire.Documents
import Placement.Proofs.Wire.Doubles
import Placement.Value.Wire
/-! # Storing what was read

What is stored of a value may differ from the value (`Value.stored`): a double that is not
finite is lost.  **What was read of a document would be stored as it is**, if the whole
numbers of the document fit 64 bits: then every double that is read is finite.
-/
namespace Placement

namespace Value

theorem storedEntries_eq_self {entries : List (String × Value)}
    (h : ∀ entry ∈ entries, entry.2.stored = entry.2) : storedEntries entries = entries := by
  rw [storedEntries_eq_map]
  refine (List.map_congr_left fun entry hentry => ?_).trans (List.map_id entries)
  rw [h entry hentry]
  rfl

theorem stored_of_decodeScalar? {j : Json} {v : Value} (hj : j.Sized)
    (h : decodeScalar? j = some v) : v.stored = v := by
  cases j with
  | int n =>
      cases hn : int64? n with
      | some i =>
          simp [decodeScalar?, scalars, hn] at h
          rw [← h, stored]
      | none =>
          simp [decodeScalar?, scalars, hn] at h
          rw [← h, stored, if_pos (isFinite_ofInt hj.1 hj.2)]
  | float x =>
      simp [decodeScalar?, scalars] at h
      rw [← h, stored, if_pos x.finite]
  | null | bool b | string s | array items | object fields =>
      simp [decodeScalar?, scalars] at h
      try rw [← h, stored]

mutual

/-- **What is read of a document would be stored as it is.** -/
theorem stored_of_decode? : ∀ (j : Json) {v : Value}, j.Sized → decode? j = some v → v.stored = v
  | .null, _, hj, h => stored_of_decodeScalar? hj h
  | .bool _, _, hj, h => stored_of_decodeScalar? hj h
  | .int _, _, hj, h => stored_of_decodeScalar? hj h
  | .float _, _, hj, h => stored_of_decodeScalar? hj h
  | .string _, _, hj, h => stored_of_decodeScalar? hj h
  | .array items, v, hj, h => by
      obtain ⟨vs, hvs, rfl⟩ := Option.map_eq_some_iff.mp h
      rw [stored, storedItems_of_decodeItems? items hj hvs]
  | .object fields, v, hj, h => by
      obtain ⟨entries, hentries, rfl⟩ := Option.map_eq_some_iff.mp h
      obtain ⟨hstored, hascending⟩ :=
        entries_of_decodeFields? fields hj (by simp) Entries.ascending_nil hentries
      rw [stored, storedEntries_eq_self hstored, Entries.ofList_eq_self hascending]

theorem storedItems_of_decodeItems? : ∀ (items : List Json) {vs : List Value},
    Json.SizedItems items → decodeItems? items = some vs → storedItems vs = vs
  | [], vs, _, h => by
      cases h
      rfl
  | j :: rest, vs, hsized, h => by
      rw [decodeItems?] at h
      split at h
      · rename_i v others hv hothers
        cases h
        rw [storedItems, stored_of_decode? j hsized.1 hv,
          storedItems_of_decodeItems? rest hsized.2 hothers]
      · cases h

theorem entries_of_decodeFields? : ∀ (fields : List (String × Json))
    {before entries : List (String × Value)}, Json.SizedFields fields →
      (∀ entry ∈ before, entry.2.stored = entry.2) → Entries.Ascending before →
      decodeFields? fields before = some entries →
      (∀ entry ∈ entries, entry.2.stored = entry.2) ∧ Entries.Ascending entries
  | [], _, _, _, hbefore, hascending, h => by
      cases h
      exact ⟨hbefore, hascending⟩
  | (name, j) :: rest, before, entries, hsized, hbefore, hascending, h => by
      rw [decodeFields?] at h
      split at h
      · rename_i v hv
        refine entries_of_decodeFields? rest hsized.2 ?_ (Entries.ascending_put name v hascending) h
        intro entry hentry
        rcases Entries.mem_put hentry with rfl | hold
        · exact stored_of_decode? j hsized.1 hv
        · exact hbefore entry hold
      · cases h

end
end Value

theorem Attributes.map_stored_of_decode? {j : Json} {attributes : Attributes} (hj : j.Sized)
    (h : Attributes.decode? j = some attributes) :
    Dict.map Value.stored attributes = attributes := by
  cases j with
  | object fields =>
      obtain ⟨entries, hentries, rfl⟩ := Option.map_eq_some_iff.mp h
      obtain ⟨hstored, -⟩ :=
        Value.entries_of_decodeFields? fields hj (by simp) Entries.ascending_nil hentries
      apply Dict.ext_find?
      intro key
      rw [Dict.find?_map]
      cases hfind : (Dict.ofList entries).find? key with
      | none => rfl
      | some v =>
          have hentry : (key, v) ∈ entries :=
            Entries.mem_of_mem_ofList (Entries.mem_of_find? hfind)
          exact congrArg some (hstored _ hentry)
  | _ => cases h
end Placement
