import Placement.Engine.Command
import Placement.Proofs.Assignments.Coherence
/-! # The engine and its store

What the engine knows about a user is in the store as well, under four keys
(`Persisted`).  Memory may lag behind the store, after a request that failed on its way;
**it never runs ahead of it** (`Engine.Consistent`).

Every operation of the engine keeps this.  Those on the identity of the user have one
statement `_spec` each, as the operations on the assignments have.
-/
namespace Placement
open Attempt Store

/-- **What a store holds of a user.**  Attributes count in the form in which they are
stored; where no attributes or assignments are stored, there are none. -/
@[ext]
structure Persisted where
  id : Except PersistenceFault (Option String)
  seed : Except PersistenceFault (Option Seed)
  attributes : Except PersistenceFault Attributes
  confirmed : Except PersistenceFault (Dict Variant)

/-- What some documents hold of a user. -/
def Persisted.ofDocuments (documents : Dict Json) : Persisted where
  id := Key.appUserId.stored documents
  seed := Key.seed.stored documents
  attributes := (Key.userAttributes.stored documents).map fun found =>
    Dict.map Value.stored (found.getD ∅)
  confirmed := AssignmentCache.confirmedIn documents

namespace Engine
variable {d e : Engine}

/-- What the store of the engine holds. -/
def persisted (engine : Engine) : Persisted := .ofDocuments engine.store.documents

/-- The name of the user that the engine takes to be the current one: the name in memory,
or the stored one if the user is not loaded. -/
def currentId (engine : Engine) : Except PersistenceFault (Option String) :=
  match engine.user with
  | some user => .ok user.id
  | none => engine.persisted.id

/-- **What is in memory is stored.**  The name in memory may be missing where one is
stored already. -/
structure Consistent (engine : Engine) : Prop where
  cache : engine.cache.Coherent
  attributes : ∀ user, engine.user = some user →
    engine.persisted.attributes = .ok (Dict.map Value.stored user.attributes)
  id : ∀ user name, engine.user = some user → user.id = some name →
    engine.persisted.id = .ok (some name)

theorem currentId_of_user_eq_some {user : User} (h : e.user = some user) :
    e.currentId = .ok user.id := by
  rw [currentId, h]

theorem currentId_of_user_eq_none (h : e.user = none) : e.currentId = e.persisted.id := by
  rw [currentId, h]

/-! ## What an access leaves -/

theorem persisted_of_documents_eq (h : d.store.documents = e.store.documents) :
    d.persisted = e.persisted :=
  congrArg Persisted.ofDocuments h

section
variable {names : List String} (h : ChangesOnly names e.store d.store)
include h

theorem persisted_id_changesOnly (hname : Key.appUserId.name ∉ names) :
    d.persisted.id = e.persisted.id :=
  Key.appUserId.stored_changesOnly h hname

theorem persisted_seed_changesOnly (hname : Key.seed.name ∉ names) :
    d.persisted.seed = e.persisted.seed :=
  Key.seed.stored_changesOnly h hname

theorem persisted_attributes_changesOnly (hname : Key.userAttributes.name ∉ names) :
    d.persisted.attributes = e.persisted.attributes := by
  show (Key.userAttributes.stored d.store.documents).map _ = _
  rw [Key.userAttributes.stored_changesOnly h hname]
  rfl

theorem persisted_confirmed_changesOnly (hname : Key.confirmedAssignments.name ∉ names) :
    d.persisted.confirmed = e.persisted.confirmed :=
  AssignmentCache.confirmedIn_congr (Key.confirmedAssignments.stored_changesOnly h hname)

end

theorem persisted_of_changesOnly_attributes
    (h : ChangesOnly [Key.userAttributes.name] e.store d.store) :
    d.persisted = { e.persisted with attributes := d.persisted.attributes } :=
  Persisted.ext (persisted_id_changesOnly h (by decide)) (persisted_seed_changesOnly h (by decide))
    rfl (persisted_confirmed_changesOnly h (by decide))

theorem persisted_of_changesOnly_id (h : ChangesOnly [Key.appUserId.name] e.store d.store) :
    d.persisted = { e.persisted with id := d.persisted.id } :=
  Persisted.ext rfl (persisted_seed_changesOnly h (by decide))
    (persisted_attributes_changesOnly h (by decide))
    (persisted_confirmed_changesOnly h (by decide))

theorem persisted_insert_attributes {attributes : Attributes}
    (h : d.store.documents = e.store.documents.insert Key.userAttributes.name
      (Key.userAttributes.encode attributes)) :
    d.persisted = { e.persisted with attributes := .ok (Dict.map Value.stored attributes) } := by
  have hwritten : d.persisted.attributes = .ok (Dict.map Value.stored attributes) := by
    show (Key.userAttributes.stored d.store.documents).map _ = _
    rw [h, Key.stored_insert_self _ (Key.decode_userAttributes attributes)]
    exact congrArg Except.ok (Attributes.map_stored_map_stored attributes)
  rw [persisted_of_changesOnly_attributes (.of_insert h), hwritten]

theorem persisted_erase_attributes
    (h : d.store.documents = e.store.documents.erase Key.userAttributes.name) :
    d.persisted = { e.persisted with attributes := .ok ∅ } := by
  have herased : d.persisted.attributes = .ok ∅ := by
    show (Key.userAttributes.stored d.store.documents).map _ = _
    rw [h, Key.stored_erase_self]
    rfl
  rw [persisted_of_changesOnly_attributes (.of_erase h), herased]

theorem persisted_insert_id {userId : String}
    (h : d.store.documents = e.store.documents.insert Key.appUserId.name
      (Key.appUserId.encode userId)) :
    d.persisted = { e.persisted with id := .ok (some userId) } := by
  have hwritten : d.persisted.id = .ok (some userId) := by
    show Key.appUserId.stored d.store.documents = _
    rw [h, Key.stored_insert_self _ (Key.decode_appUserId userId)]
  rw [persisted_of_changesOnly_id (.of_insert h), hwritten]

theorem persisted_erase_id
    (h : d.store.documents = e.store.documents.erase Key.appUserId.name) :
    d.persisted = { e.persisted with id := .ok none } := by
  have herased : d.persisted.id = .ok none := by
    show Key.appUserId.stored d.store.documents = _
    rw [h, Key.stored_erase_self]
  rw [persisted_of_changesOnly_id (.of_erase h), herased]

/-- Only the store may differ, and what is drawn from it. -/
structure SameMemory (e d : Engine) : Prop where
  user : d.user = e.user
  loaded : d.cache.loaded = e.cache.loaded
  seedFromUserId : d.seedFromUserId = e.seedFromUserId

theorem sameMemory_setStore (store : Store) (e : Engine) : SameMemory e (setStore store e) :=
  ⟨rfl, rfl, rfl⟩

theorem SameMemory.currentId (h : SameMemory e d) (hid : d.persisted.id = e.persisted.id) :
    d.currentId = e.currentId := by
  rw [Engine.currentId, Engine.currentId, h.user, hid]

section
variable {α : Type} {key : Key α}

theorem read_spec {r : Except PersistenceFault (Option α)}
    (h : (onStore key.read).outcome e = (r, d)) :
    SameMemory e d ∧ d.store.documents = e.store.documents ∧
      ∀ x, r = .ok x → key.stored e.store.documents = .ok x := by
  rw [onStore, outcome_on] at h
  cases h
  refine ⟨sameMemory_setStore _ e, key.read_documents e.store, ?_⟩
  intro x hx
  exact key.read_ok (Prod.ext hx rfl)

theorem write_spec {x : α} {r : Except PersistenceFault Unit}
    (h : (onStore (key.write x)).outcome e = (r, d)) :
    SameMemory e d ∧
      Ends r (fun () => d.store.documents = e.store.documents.insert key.name (key.encode x))
        (d.store.documents = e.store.documents) := by
  rw [onStore, outcome_on] at h
  obtain ⟨hr, rfl⟩ := Prod.mk.inj h
  refine ⟨sameMemory_setStore _ e, ?_⟩
  cases r with
  | ok done => exact key.write_ok (Prod.ext hr rfl)
  | error fault => exact key.write_error (Prod.ext hr rfl)

theorem delete_spec {r : Except PersistenceFault Unit}
    (h : (onStore key.delete).outcome e = (r, d)) :
    SameMemory e d ∧
      Ends r (fun () => d.store.documents = e.store.documents.erase key.name)
        (d.store.documents = e.store.documents) := by
  rw [onStore, outcome_on] at h
  obtain ⟨hr, rfl⟩ := Prod.mk.inj h
  refine ⟨sameMemory_setStore _ e, ?_⟩
  cases r with
  | ok done => exact key.delete_ok (Prod.ext hr rfl)
  | error fault => exact key.delete_error (Prod.ext hr rfl)

theorem onCache_spec {ε : Type} {step : Attempt AssignmentCache ε α} {r : Except ε α}
    (h : (onCache step).outcome e = (r, d)) :
    ∃ cache, d = { e with cache } ∧ step.outcome e.cache = (r, cache) := by
  rw [onCache, outcome_on] at h
  obtain ⟨hr, rfl⟩ := Prod.mk.inj h
  exact ⟨_, rfl, Prod.ext hr rfl⟩

end

/-! ## Consistency -/

theorem consistent_of_user_eq_none (hcache : e.cache.Coherent) (h : e.user = none) :
    Consistent e := by
  refine ⟨hcache, ?_, ?_⟩
  · intro user huser
    rw [h] at huser
    cases huser
  · intro user name huser
    rw [h] at huser
    cases huser

theorem Consistent.congr (he : Consistent e) (h : SameMemory e d)
    (hdocuments : d.store.documents = e.store.documents) : Consistent d := by
  have hpersisted := persisted_of_documents_eq hdocuments
  refine ⟨AssignmentCache.coherent_congr he.cache h.loaded hdocuments, ?_, ?_⟩
  · rw [h.user, hpersisted]
    exact he.attributes
  · rw [h.user, hpersisted]
    exact he.id

/-- Operations on the assignments leave the user. -/
theorem Consistent.setCache (he : Consistent e) {cache : AssignmentCache}
    (hcache : cache.Coherent)
    (hchanges : ChangesOnly [Key.seed.name, Key.confirmedAssignments.name] e.cache.store
      cache.store) : Consistent { e with cache } := by
  have hchanges' : ChangesOnly [Key.seed.name, Key.confirmedAssignments.name] e.store
      (Engine.store { e with cache }) := hchanges
  refine ⟨hcache, ?_, ?_⟩
  · intro user huser
    rw [persisted_attributes_changesOnly hchanges' (by decide)]
    exact he.attributes user huser
  · intro user name huser hname
    rw [persisted_id_changesOnly hchanges' (by decide)]
    exact he.id user name huser hname

theorem outcome_currentUser_of_loaded {user : User} (h : e.user = some user) :
    currentUser.outcome e = (.ok user, e) := by
  rw [currentUser, outcome_bind, outcome_get]
  simp only [h, outcome_pure]

theorem outcome_currentUser_of_not_loaded (h : e.user = none) :
    currentUser.outcome e = (do
      let attributes := (← onStore Key.userAttributes.read).getD ∅
      let id ← onStore Key.appUserId.read
      setUser ⟨attributes, id⟩
      return ⟨attributes, id⟩ : Attempt Engine PersistenceFault User).outcome e := by
  rw [currentUser, outcome_bind, outcome_get]
  simp only [h]

/-- The user is loaded by reading two documents: what each reading keeps, and putting the user
in memory, is kept. -/
theorem within_currentUser {R : Engine → Engine → Prop} (hrefl : ∀ e, R e e)
    (htrans : ∀ {e d f}, R e d → R d f → R e f)
    (hread : ∀ {α : Type} (key : Key α), (onStore key.read).Within R)
    (hset : ∀ e user, R e { e with user := some user }) : currentUser.Within R := by
  intro e
  cases huser : e.user with
  | some user =>
      rw [outcome_currentUser_of_loaded huser]
      exact hrefl e
  | none =>
      rw [outcome_currentUser_of_not_loaded huser]
      refine Within.bind @htrans (hread Key.userAttributes) (fun attributes => ?_) e
      refine Within.bind @htrans (hread Key.appUserId) fun id => ?_
      exact fun d => hset d _

/-- Loading the user changes nothing in the store. -/
theorem documents_currentUser (e : Engine) :
    (currentUser.outcome e).2.store.documents = e.store.documents :=
  within_currentUser (R := fun e d => d.store.documents = e.store.documents) (fun _ => rfl)
    (fun hst htu => htu.trans hst) (fun key e => key.read_documents e.store) (fun _ _ => rfl) e

/-- **The current user**, once loaded, is in memory; nothing else changes. -/
theorem currentUser_spec {r : Except PersistenceFault User} (he : Consistent e)
    (h : currentUser.outcome e = (r, d)) :
    Consistent d ∧ d.persisted = e.persisted ∧ d.currentId = e.currentId ∧
      d.seedFromUserId = e.seedFromUserId ∧
      Ends r (fun user => d.user = some user) (d.user = none) := by
  cases huser : e.user with
  | some user =>
      rw [outcome_currentUser_of_loaded huser] at h
      cases h
      exact ⟨he, rfl, rfl, rfl, huser⟩
  | none =>
      rw [outcome_currentUser_of_not_loaded huser] at h
      rcases hfirst : (onStore Key.userAttributes.read).outcome e with ⟨fault | attributes, e₁⟩
      · rw [outcome_bind_error hfirst] at h
        cases h
        obtain ⟨hmemory, hdocuments, -⟩ := read_spec hfirst
        have hpersisted := persisted_of_documents_eq hdocuments
        exact ⟨he.congr hmemory hdocuments, hpersisted,
          hmemory.currentId (congrArg Persisted.id hpersisted), hmemory.seedFromUserId,
          hmemory.user.trans huser⟩
      · obtain ⟨hmemory, hdocuments, hattributes⟩ := read_spec hfirst
        rw [outcome_bind_ok hfirst] at h
        have he₁ := he.congr hmemory hdocuments
        have hpersisted := persisted_of_documents_eq hdocuments
        rcases hsecond : (onStore Key.appUserId.read).outcome e₁ with ⟨fault | id, e₂⟩
        · rw [outcome_bind_error hsecond] at h
          cases h
          obtain ⟨hmemory', hdocuments', -⟩ := read_spec hsecond
          have hpersisted' := (persisted_of_documents_eq hdocuments').trans hpersisted
          refine ⟨he₁.congr hmemory' hdocuments', hpersisted', ?_,
            hmemory'.seedFromUserId.trans hmemory.seedFromUserId,
            hmemory'.user.trans (hmemory.user.trans huser)⟩
          rw [currentId_of_user_eq_none huser, ← hpersisted']
          exact currentId_of_user_eq_none (hmemory'.user.trans (hmemory.user.trans huser))
        · obtain ⟨hmemory', hdocuments', hid⟩ := read_spec hsecond
          rw [outcome_bind_ok hsecond] at h
          cases h
          have hpersisted' := (persisted_of_documents_eq hdocuments').trans hpersisted
          have hstored : e.persisted.id = .ok id := by
            rw [← hpersisted]
            exact hid id rfl
          refine ⟨⟨(he₁.congr hmemory' hdocuments').cache, ?_, ?_⟩, hpersisted', ?_,
            hmemory'.seedFromUserId.trans hmemory.seedFromUserId, rfl⟩
          · rintro _ ⟨⟩
            show e₂.persisted.attributes = _
            rw [hpersisted']
            show (Key.userAttributes.stored e.store.documents).map _ = _
            rw [hattributes _ rfl]
            rfl
          · rintro _ name ⟨⟩ hname
            show e₂.persisted.id = _
            rw [hpersisted', hstored]
            exact congrArg Except.ok hname
          · rw [currentId_of_user_eq_none huser, hstored]
            rfl

/-! ## Attributes -/

/-- **Changing attributes** writes the changed ones, or leaves what is stored. -/
theorem setAttributes_spec {changes : Attributes} {r : Except PersistenceFault Unit}
    (he : Consistent e) (h : (setAttributes changes).outcome e = (r, d)) :
    Consistent d ∧ d.currentId = e.currentId ∧ d.seedFromUserId = e.seedFromUserId ∧
      Ends r
        (fun () => ∃ attributes,
          e.persisted.attributes = .ok (Dict.map Value.stored attributes) ∧
          d.persisted = { e.persisted with
            attributes := .ok (Dict.map Value.stored (change attributes changes)) })
        (d.persisted = e.persisted) := by
  rw [setAttributes] at h
  rcases hload : currentUser.outcome e with ⟨fault | user, e₁⟩
  · rw [outcome_bind_error hload] at h
    cases h
    obtain ⟨hd, hpersisted, hid, hflag, -⟩ := currentUser_spec he hload
    exact ⟨hd, hid, hflag, hpersisted⟩
  · obtain ⟨he₁, hpersisted, hid, hflag, huser⟩ := currentUser_spec he hload
    rw [outcome_bind_ok hload] at h
    rcases hwrite : (onStore (Key.userAttributes.write (change user.attributes changes))).outcome e₁
      with ⟨fault | ⟨⟩, e₂⟩
    · rw [outcome_bind_error hwrite] at h
      cases h
      obtain ⟨hmemory, hdocuments⟩ := write_spec hwrite
      have hsame := persisted_of_documents_eq hdocuments
      exact ⟨he₁.congr hmemory hdocuments,
        (hmemory.currentId (congrArg Persisted.id hsame)).trans hid,
        hmemory.seedFromUserId.trans hflag, hsame.trans hpersisted⟩
    · rw [outcome_bind_ok hwrite] at h
      cases h
      obtain ⟨hmemory, hdocuments⟩ := write_spec hwrite
      have hinsert := persisted_insert_attributes hdocuments
      refine ⟨⟨?_, ?_, ?_⟩, ?_, hmemory.seedFromUserId.trans hflag, user.attributes, ?_, ?_⟩
      · exact AssignmentCache.coherent_changesOnly he₁.cache hmemory.loaded
          (.of_insert hdocuments) (by decide) (by decide)
      · rintro _ ⟨⟩
        exact congrArg Persisted.attributes hinsert
      · rintro _ name ⟨⟩ hname
        exact (congrArg Persisted.id hinsert).trans (he₁.id user name huser hname)
      · rw [← hid, currentId_of_user_eq_some huser]
        rfl
      · rw [← hpersisted]
        exact he₁.attributes user huser
      · rw [← hpersisted]
        exact hinsert

/-! ## Forgetting the user -/

/-- What a reset deletes from the store. -/
def deleteUser : Attempt Engine PersistenceFault Unit := do
  onStore Key.userAttributes.delete
  onStore Key.appUserId.delete

/-- The name goes last. -/
theorem deleteUser_spec {r : Except PersistenceFault Unit} (h : deleteUser.outcome e = (r, d)) :
    SameMemory e d ∧ ChangesOnly [Key.userAttributes.name, Key.appUserId.name] e.store d.store ∧
      Ends r (fun () => d.persisted = { e.persisted with id := .ok none, attributes := .ok ∅ })
        (d.persisted.id = e.persisted.id) := by
  rw [deleteUser] at h
  rcases hfirst : (onStore Key.userAttributes.delete).outcome e with ⟨fault | ⟨⟩, e₁⟩
  · rw [outcome_bind_error hfirst] at h
    cases h
    obtain ⟨hmemory, hdocuments⟩ := delete_spec hfirst
    exact ⟨hmemory, .of_documents_eq _ hdocuments,
      congrArg Persisted.id (persisted_of_documents_eq hdocuments)⟩
  · obtain ⟨hmemory, hdocuments⟩ := delete_spec hfirst
    rw [outcome_bind_ok hfirst] at h
    have herased := persisted_erase_attributes hdocuments
    have hchanges : ChangesOnly [Key.userAttributes.name] e.store e₁.store := .of_erase hdocuments
    obtain ⟨hmemory', hends⟩ := delete_spec h
    have hboth : SameMemory e d :=
      ⟨hmemory'.user.trans hmemory.user, hmemory'.loaded.trans hmemory.loaded,
        hmemory'.seedFromUserId.trans hmemory.seedFromUserId⟩
    cases r with
    | error fault =>
        refine ⟨hboth, (hchanges.mono (by simp)).trans (.of_documents_eq _ hends), ?_⟩
        rw [Ends, persisted_of_documents_eq hends, herased]
    | ok done =>
        refine ⟨hboth, (hchanges.mono (by simp)).trans
          ((ChangesOnly.of_erase hends).mono (by simp)), ?_⟩
        rw [Ends, persisted_erase_id hends, herased]

/-- **A reset** leaves nothing of the user but a seed; or it fails, and the user is
loaded again under the same name. -/
theorem reset_spec {r : Except PersistenceFault Unit} (h : reset.outcome e = (r, d)) :
    Consistent d ∧ d.seedFromUserId = e.seedFromUserId ∧
      Ends r
        (fun () => d.user = some .unknown ∧ d.persisted.id = .ok none ∧
          d.persisted.attributes = .ok ∅ ∧ d.persisted.confirmed = .ok ∅)
        (d.user = none ∧ d.persisted.id = e.persisted.id) := by
  let e₀ : Engine := { e with user := none }
  have hforget : (modify fun engine => { engine with user := none } :
      Attempt Engine PersistenceFault Unit).outcome e = (.ok (), e₀) := rfl
  rw [reset, outcome_bind_ok hforget] at h
  rcases hcache : (onCache AssignmentCache.reset).outcome e₀ with ⟨fault | ⟨⟩, e₁⟩
  · rw [outcome_bind_error hcache] at h
    cases h
    obtain ⟨cache, rfl, hreset⟩ := onCache_spec hcache
    obtain ⟨hc, hchanges, -⟩ := AssignmentCache.reset_spec hreset
    refine ⟨consistent_of_user_eq_none hc rfl, rfl, rfl, ?_⟩
    exact persisted_id_changesOnly (e := e) hchanges (by decide)
  · obtain ⟨cache, rfl, hreset⟩ := onCache_spec hcache
    obtain ⟨hc, hchanges, hconfirmed⟩ := AssignmentCache.reset_spec hreset
    rw [outcome_bind_ok hcache] at h
    have hid : (Engine.persisted { e₀ with cache }).id = e.persisted.id :=
      persisted_id_changesOnly (d := { e₀ with cache }) (e := e) hchanges (by decide)
    have hempty : (Engine.persisted { e₀ with cache }).confirmed = .ok ∅ := by
      show (Key.confirmedAssignments.stored cache.store.documents).map _ = _
      rw [hconfirmed]
      rfl
    have hdelete : (deleteUser >>= fun _ => setUser .unknown :
        Attempt Engine PersistenceFault Unit).outcome { e₀ with cache } = (r, d) := by
      rw [deleteUser, bind_assoc]
      exact h
    rcases hdeleted : deleteUser.outcome { e₀ with cache } with ⟨fault | ⟨⟩, e₂⟩
    · rw [outcome_bind_error hdeleted] at hdelete
      cases hdelete
      obtain ⟨hmemory, hchanges', hsame⟩ := deleteUser_spec hdeleted
      refine ⟨consistent_of_user_eq_none ?_ hmemory.user, hmemory.seedFromUserId, hmemory.user,
        hsame.trans hid⟩
      exact AssignmentCache.coherent_changesOnly hc hmemory.loaded hchanges' (by decide) (by decide)
    · rw [outcome_bind_ok hdeleted] at hdelete
      cases hdelete
      obtain ⟨hmemory, hchanges', hdeleted'⟩ := deleteUser_spec hdeleted
      have hc' := AssignmentCache.coherent_changesOnly hc hmemory.loaded hchanges' (by decide)
        (by decide)
      refine ⟨⟨hc', ?_, ?_⟩, hmemory.seedFromUserId, rfl, congrArg Persisted.id hdeleted',
        congrArg Persisted.attributes hdeleted',
        (congrArg Persisted.confirmed hdeleted').trans hempty⟩
      · rintro _ ⟨⟩
        exact congrArg Persisted.attributes hdeleted'
      · rintro _ name ⟨⟩ hname
        cases hname

end Engine
end Placement
