import Placement.Store
/-! # What a store holds

A stored document counts as the value that is read from it (`Key.stored`).  The
statements here say what one access does to all such values: **a read changes nothing, a
failed access changes nothing, and a write or deletion changes what is stored under its
own key only**.  A seed, assignments and a name come back as they were written; of
attributes comes back what is stored of each (`Value.stored`).
-/
namespace Placement

namespace Store

/-- The store after an access that changed nothing. -/
def passed (store : Store) : Store := { store with faults := store.faults.tail }

/-- Nothing is stored differently, but for what is stored under certain keys. -/
def ChangesOnly (names : List String) (s t : Store) : Prop :=
  ∀ name, name ∉ names → t.documents.find? name = s.documents.find? name

namespace ChangesOnly
variable {names : List String} {s t u : Store}

theorem refl (names : List String) (s : Store) : ChangesOnly names s s := fun _ _ => rfl

theorem trans (hst : ChangesOnly names s t) (htu : ChangesOnly names t u) :
    ChangesOnly names s u :=
  fun name hname => (htu name hname).trans (hst name hname)

theorem mono {more : List String} (h : ChangesOnly names s t) (hsub : ∀ name ∈ names, name ∈ more) :
    ChangesOnly more s t :=
  fun name hname => h name fun hn => hname (hsub name hn)

theorem of_documents_eq (names : List String) (h : t.documents = s.documents) :
    ChangesOnly names s t :=
  fun name _ => congrArg (·.find? name) h

theorem of_insert {name : String} {document : Json}
    (h : t.documents = s.documents.insert name document) : ChangesOnly [name] s t := by
  intro other hother
  have hne : name ≠ other := fun he => hother (he ▸ List.mem_singleton_self _)
  rw [h, Dict.find?_insert, if_neg hne]

theorem of_erase {name : String} (h : t.documents = s.documents.erase name) :
    ChangesOnly [name] s t := by
  intro other hother
  have hne : name ≠ other := fun he => hother (he ▸ List.mem_singleton_self _)
  rw [h, Dict.find?_erase, if_neg hne]

end ChangesOnly

/-! ## One access -/

theorem outcome_access {α : Type} (what : StoreAccess) (fault : String → PersistenceFault)
    (act : Store → α × Store) (s : Store) :
    (access what fault act).outcome s =
      match s.faults.head what with
      | some reason => (.error (fault reason), s.passed)
      | none => (.ok (act s.passed).1, (act s.passed).2) := rfl

end Store

namespace Key
variable {α : Type} (key : Key α)

/-- **What some documents hold under a key.** -/
def stored (documents : Dict Json) : Except PersistenceFault (Option α) :=
  key.ofDocument (documents.find? key.name)

theorem stored_congr {d e : Dict Json} (h : e.find? key.name = d.find? key.name) :
    key.stored e = key.stored d := by
  rw [stored, stored, h]

theorem stored_changesOnly {names : List String} {s t : Store} (h : Store.ChangesOnly names s t)
    (hname : key.name ∉ names) : key.stored t.documents = key.stored s.documents :=
  key.stored_congr (h key.name hname)

theorem stored_insert_self {x y : α} (h : key.decode (key.encode x) = .ok y) (d : Dict Json) :
    key.stored (d.insert key.name (key.encode x)) = .ok (some y) := by
  simp only [stored, Dict.find?_insert_self, ofDocument, h]

theorem stored_erase_self (d : Dict Json) : key.stored (d.erase key.name) = .ok none := by
  simp only [stored, Dict.find?_erase, if_true, ofDocument]

/-! ## One access by key -/

theorem outcome_read (s : Store) :
    key.read.outcome s =
      (match s.faults.head (.read key.name) with
        | some reason => .error (.read key.name reason)
        | none => key.stored s.documents, s.passed) := by
  rw [read, Attempt.outcome_bind, Store.read, Store.outcome_access]
  cases s.faults.head (.read key.name) <;> rfl

theorem read_documents (s : Store) : (key.read.outcome s).2.documents = s.documents := by
  rw [outcome_read]
  rfl

theorem read_ok {s t : Store} {x : Option α} (h : key.read.outcome s = (.ok x, t)) :
    key.stored s.documents = .ok x := by
  rw [outcome_read] at h
  have hresult := congrArg Prod.fst h
  dsimp only at hresult
  split at hresult
  · cases hresult
  · exact hresult

theorem write_ok {s t : Store} {x : α} (h : (key.write x).outcome s = (.ok (), t)) :
    t.documents = s.documents.insert key.name (key.encode x) := by
  rw [write, Store.write, Store.outcome_access] at h
  split at h <;> cases h
  rfl

theorem write_error {s t : Store} {x : α} {fault : PersistenceFault}
    (h : (key.write x).outcome s = (.error fault, t)) : t.documents = s.documents := by
  rw [write, Store.write, Store.outcome_access] at h
  split at h <;> cases h
  rfl

theorem delete_ok {s t : Store} (h : key.delete.outcome s = (.ok (), t)) :
    t.documents = s.documents.erase key.name := by
  rw [delete, Store.delete, Store.outcome_access] at h
  split at h <;> cases h
  rfl

theorem delete_error {s t : Store} {fault : PersistenceFault}
    (h : key.delete.outcome s = (.error fault, t)) : t.documents = s.documents := by
  rw [delete, Store.delete, Store.outcome_access] at h
  split at h <;> cases h
  rfl

/-! ## A store that does not fail -/

theorem outcome_read_of_calm {s : Store} (h : s.faults = .none) :
    key.read.outcome s = (key.stored s.documents, s) := by
  rcases s with ⟨documents, faults, changed⟩
  cases h
  exact key.outcome_read _

theorem outcome_write_of_calm {s : Store} (h : s.faults = .none) (x : α) :
    (key.write x).outcome s = (.ok (), { s with
      documents := s.documents.insert key.name (key.encode x)
      changed := key.name :: s.changed }) := by
  rcases s with ⟨documents, faults, changed⟩
  cases h
  rfl

theorem outcome_delete_of_calm {s : Store} (h : s.faults = .none) :
    key.delete.outcome s = (.ok (), { s with
      documents := s.documents.erase key.name, changed := key.name :: s.changed }) := by
  rcases s with ⟨documents, faults, changed⟩
  cases h
  rfl

/-! ## What comes back under each key -/

theorem decode_seed (seed : Seed) : Key.seed.decode (Key.seed.encode seed) = .ok seed := by
  simp only [Key.seed, Seed.decode_toJson]

theorem decode_confirmedAssignments (confirmed : Dict Variant) :
    confirmedAssignments.decode (confirmedAssignments.encode confirmed) = .ok confirmed := by
  simp only [confirmedAssignments, Json.dict?_ofDict Variant.decode?_toJson,
    DecodeFault.ofOption]

theorem decode_userAttributes (attributes : Attributes) :
    userAttributes.decode (userAttributes.encode attributes) =
      .ok (Dict.map Value.stored attributes) := by
  simp only [userAttributes, Attributes.decode?_toJson, DecodeFault.ofOption]

theorem decode_appUserId (userId : String) :
    appUserId.decode (appUserId.encode userId) = .ok userId := rfl

end Key
end Placement
