import Placement.Proofs.Engine.Likeness
import Placement.Proofs.Wire.Rereading
/-! # The user in memory and the user in the store

Memory may lag behind the store (`Engine.Consistent`).  This says **when it does**, over any
run of evaluations, commands and new starts, whichever accesses fail (`lagsAfter`): the last
call to identify that stored a name stopped at the seed, and neither a reset nor a new start
came since.  Then the store has a name and memory has none.  In all other cases a new start
leaves the current user (`restart_keeps_user_iff`).

Attributes are in memory as they were given and in the store as they could be written; they
agree as far as that is the same (`Value.stored`).
-/
namespace Placement
open Attempt Store

namespace Engine
variable {d e start : Engine} {userId : String} {lagging : Bool}

/-! ## The name -/

/-- Memory and store have the same name, or memory has nothing. -/
def Abreast (engine : Engine) : Prop := engine.currentId = engine.persisted.id

/-- Memory says that nobody is identified, and the store has a name. -/
def Behind (engine : Engine) : Prop :=
  engine.currentId = .ok none ∧ ∃ name, engine.persisted.id = .ok (some name)

/-- Which of the two it is. -/
def Stands (lagging : Bool) (engine : Engine) : Prop :=
  if lagging then Behind engine else Abreast engine

theorem Behind.not_abreast (h : Behind e) : ¬ Abreast e := by
  obtain ⟨hnobody, name, hstored⟩ := h
  intro habreast
  rw [Abreast, hnobody, hstored] at habreast
  cases habreast

theorem abreast_of_user_eq_none (h : e.user = none) : Abreast e := currentId_of_user_eq_none h

theorem Stands.congr (h : Stands lagging e) (hcurrent : d.currentId = e.currentId)
    (hstored : d.persisted.id = e.persisted.id) : Stands lagging d := by
  rw [Stands, Behind, Abreast, hcurrent, hstored]
  exact h

/-- The steps of a call to identify that end with storing the name.  They tell whether it was
stored: not if the user is on record. -/
def announce (userId : String) : Attempt Engine PersistenceFault Bool := do
  let user ← currentUser
  if user.id = some userId then return false
  if user.id.isSome then reset
  onStore (Key.appUserId.write userId)
  return true

theorem identify_eq_announce (userId : String) :
    identify userId = (do
      if ← announce userId then
        adjustSeed userId
        recordUser userId) := by
  rw [identify_eq, announce, bind_assoc]
  refine congrArg (currentUser >>= ·) (funext fun user => ?_)
  by_cases hself : user.id = some userId
  · rw [if_pos hself, if_pos hself, pure_bind]
    rfl
  · rw [if_neg hself, if_neg hself, enroll_eq]
    by_cases hknown : user.id.isSome = true
    · simp [hknown]
    · simp [hknown]

/-- Where memory has no name, the name is stored behind it, or nothing changes. -/
theorem storeName_spec {r : Except PersistenceFault Bool} {user : User} (he : Consistent e)
    (huser : e.user = some user) (hnone : user.id = none)
    (h : (do onStore (Key.appUserId.write userId); return true :
      Attempt Engine PersistenceFault Bool).outcome e = (r, d)) :
    Consistent d ∧ d.user = e.user ∧
      Ends r (fun stored => stored = true ∧ d.persisted.id = .ok (some userId))
        (d.persisted.id = e.persisted.id) := by
  rcases hwrite : (onStore (Key.appUserId.write userId)).outcome e with ⟨fault | ⟨⟩, e₁⟩
  · rw [outcome_bind_error hwrite] at h
    cases h
    obtain ⟨hmemory, hdocuments⟩ := write_spec hwrite
    have hpersisted := persisted_of_documents_eq hdocuments
    exact ⟨he.congr hmemory hdocuments, hmemory.user, congrArg Persisted.id hpersisted⟩
  · rw [outcome_bind_ok hwrite] at h
    cases h
    obtain ⟨hmemory, hdocuments⟩ := write_spec hwrite
    exact ⟨he.storeName huser hnone hmemory hdocuments, hmemory.user, rfl,
      congrArg Persisted.id (persisted_insert_id hdocuments)⟩

/-- **To announce a name** stores it behind a memory that has none, or leaves memory standing
to the store as it did. -/
theorem announce_spec {r : Except PersistenceFault Bool} (he : Consistent e)
    (hstands : Stands lagging e) (h : (announce userId).outcome e = (r, d)) :
    Consistent d ∧
      ((r = .ok true ∧ (∃ user, d.user = some user ∧ user.id = none) ∧
          d.persisted.id = .ok (some userId)) ∨
        (r ≠ .ok true ∧ Stands lagging d)) := by
  -- The last step, from any state that it can start in.
  have hlast : ∀ {e₁ : Engine} {user : User}, Consistent e₁ → e₁.user = some user →
      user.id = none → Stands lagging e₁ →
      (do onStore (Key.appUserId.write userId); return true :
        Attempt Engine PersistenceFault Bool).outcome e₁ = (r, d) →
      Consistent d ∧
        ((r = .ok true ∧ (∃ user, d.user = some user ∧ user.id = none) ∧
            d.persisted.id = .ok (some userId)) ∨
          (r ≠ .ok true ∧ Stands lagging d)) := by
    intro e₁ user he₁ huser hnone hstands₁ hrest
    obtain ⟨hd, huser', hends⟩ := storeName_spec he₁ huser hnone hrest
    refine ⟨hd, ?_⟩
    cases r with
    | ok stored =>
        obtain ⟨rfl, hstored⟩ := hends
        exact .inl ⟨rfl, ⟨user, huser'.trans huser, hnone⟩, hstored⟩
    | error fault =>
        refine .inr ⟨nofun, hstands₁.congr ?_ hends⟩
        rw [currentId_of_user_eq_some (huser'.trans huser), currentId_of_user_eq_some huser]
  rw [announce] at h
  rcases hload : currentUser.outcome e with ⟨fault | user, e₁⟩
  · rw [outcome_bind_error hload] at h
    cases h
    obtain ⟨hd, hpersisted, hid, -⟩ := currentUser_spec he hload
    exact ⟨hd, .inr ⟨nofun, hstands.congr hid (congrArg Persisted.id hpersisted)⟩⟩
  · obtain ⟨he₁, hpersisted, hid, -, huser⟩ := currentUser_spec he hload
    have hstands₁ : Stands lagging e₁ := hstands.congr hid (congrArg Persisted.id hpersisted)
    rw [outcome_bind_ok hload] at h
    by_cases hself : user.id = some userId
    · rw [if_pos hself] at h
      cases h
      exact ⟨he₁, .inr ⟨nofun, hstands₁⟩⟩
    · rw [if_neg hself] at h
      cases hknown : user.id with
      | none =>
          rw [hknown] at h
          exact hlast he₁ huser hknown hstands₁ h
      | some name =>
          rw [hknown] at h
          dsimp only [Option.isSome] at h
          rw [if_pos rfl] at h
          -- Memory that has a name does not lag.
          have habreast : lagging = false := by
            cases lagging with
            | false => rfl
            | true =>
                obtain ⟨hnobody, -⟩ := hstands₁
                rw [currentId_of_user_eq_some huser, hknown] at hnobody
                cases hnobody
          subst habreast
          rcases hreset : reset.outcome e₁ with ⟨fault | ⟨⟩, e₂⟩
          · rw [outcome_bind_error hreset] at h
            cases h
            obtain ⟨hd, -, hnone, -⟩ := reset_spec hreset
            exact ⟨hd, .inr ⟨nofun, abreast_of_user_eq_none hnone⟩⟩
          · obtain ⟨he₂, -, hunknown, hgone, -⟩ := reset_spec hreset
            rw [outcome_bind_ok hreset] at h
            refine hlast he₂ hunknown rfl ?_ h
            exact (currentId_of_user_eq_some hunknown).trans hgone.symm

/-- The step on the seed leaves the name where it is. -/
theorem adjustSeed_spec {r : Except PersistenceFault Unit} (he : Consistent e)
    (h : (adjustSeed userId).outcome e = (r, d)) :
    Consistent d ∧ d.user = e.user ∧ d.persisted.id = e.persisted.id ∧
      ChangesOnly [Key.seed.name] e.store d.store := by
  rw [adjustSeed, outcome_bind, outcome_get] at h
  dsimp only at h
  by_cases hset : e.seedFromUserId = true
  · rw [if_pos hset] at h
    obtain ⟨hd, huser, -, hpersisted, -⟩ := useSeed_spec he h
    obtain ⟨cache, rfl, huse⟩ := onCache_spec h
    obtain ⟨-, hchanges, -⟩ := AssignmentCache.useSeed_spec he.cache huse
    exact ⟨hd, huser, by rw [hpersisted], hchanges⟩
  · rw [if_neg hset] at h
    cases h
    exact ⟨he, rfl, rfl, .refl _ _⟩

/-! ## The attributes -/

/-- The attributes that some documents hold would be stored as they are. -/
def Storable (documents : Dict Json) : Prop :=
  ∀ attributes, Key.userAttributes.stored documents = .ok (some attributes) →
    Dict.map Value.stored attributes = attributes

theorem storable_of_sized {documents : Dict Json}
    (h : ∀ document, documents.find? Key.userAttributes.name = some document → document.Sized) :
    Storable documents := by
  intro attributes hstored
  rw [Key.stored] at hstored
  cases hfind : documents.find? Key.userAttributes.name with
  | none =>
      rw [hfind] at hstored
      cases hstored
  | some document =>
      rw [hfind] at hstored
      dsimp only [Key.ofDocument, Key.userAttributes] at hstored
      cases hread : Attributes.decode? document with
      | none =>
          rw [hread] at hstored
          cases hstored
      | some found =>
          rw [hread] at hstored
          cases hstored
          exact Attributes.map_stored_of_decode? (h document hfind) hread

theorem Storable.changesOnly {names : List String} {s t : Store} (hs : Storable s.documents)
    (h : ChangesOnly names s t) (hname : Key.userAttributes.name ∉ names) :
    Storable t.documents := by
  rw [Storable, Key.userAttributes.stored_changesOnly h hname]
  exact hs

/-- The step leaves attributes that would be stored as they are, if it finds such. -/
def KeepsStorable {ε α : Type} (step : Attempt Engine ε α) : Prop :=
  step.Within fun e d => Storable e.store.documents → Storable d.store.documents

section
variable {ε α β : Type}

theorem KeepsStorable.bind {step : Attempt Engine ε α} {next : α → Attempt Engine ε β}
    (hstep : KeepsStorable step) (hnext : ∀ x, KeepsStorable (next x)) :
    KeepsStorable (step >>= next) :=
  Within.bind (fun hst htu hs => htu (hst hs)) hstep hnext

theorem keepsStorable_pure (x : α) : KeepsStorable (pure x : Attempt Engine ε α) :=
  fun _ hs => hs

theorem keepsStorable_setUser (user : User) :
    KeepsStorable (setUser user : Attempt Engine ε Unit) := fun _ hs => hs

theorem keepsStorable_currentUser : KeepsStorable currentUser := by
  intro e hs
  rw [documents_currentUser]
  exact hs

/-- Documents under other keys do not matter. -/
theorem keepsStorable_write {key : Key α} (hkey : key.name ≠ Key.userAttributes.name) (x : α) :
    KeepsStorable (onStore (key.write x)) := by
  intro e hs
  obtain ⟨-, hends⟩ := write_spec (Prod.eta ((onStore (key.write x)).outcome e)).symm
  refine hends.elim ?_ ?_
  · intro done _ hdocuments
    exact hs.changesOnly (.of_insert hdocuments) (by simpa using hkey.symm)
  · intro fault _ hdocuments
    rw [hdocuments]
    exact hs

theorem keepsStorable_delete (key : Key α) : KeepsStorable (onStore key.delete) := by
  intro e hs
  obtain ⟨-, hends⟩ := delete_spec (Prod.eta ((onStore key.delete).outcome e)).symm
  refine hends.elim ?_ ?_
  · intro done _ hdocuments
    by_cases hkey : key.name = Key.userAttributes.name
    · intro attributes hstored
      rw [hdocuments, hkey, Key.stored_erase_self] at hstored
      cases hstored
    · exact hs.changesOnly (.of_erase hdocuments) (by simpa using Ne.symm hkey)
  · intro fault _ hdocuments
    rw [hdocuments]
    exact hs

end

/-- Whatever attributes are written, what is read of them would be stored as it is. -/
theorem keepsStorable_writeAttributes (attributes : Attributes) :
    KeepsStorable (onStore (Key.userAttributes.write attributes)) := by
  intro e hs
  obtain ⟨-, hends⟩ :=
    write_spec (Prod.eta ((onStore (Key.userAttributes.write attributes)).outcome e)).symm
  refine hends.elim ?_ ?_
  · intro done _ hdocuments found hfound
    rw [hdocuments, Key.stored_insert_self _ (Key.decode_userAttributes attributes)] at hfound
    cases hfound
    exact Attributes.map_stored_map_stored attributes
  · intro fault _ hdocuments
    rw [hdocuments]
    exact hs

theorem keepsStorable_setAttributes (changes : Attributes) :
    KeepsStorable (setAttributes changes) :=
  keepsStorable_currentUser.bind fun _ =>
    (keepsStorable_writeAttributes _).bind fun _ => keepsStorable_setUser _

theorem keepsStorable_reset : KeepsStorable reset := by
  have hforget : KeepsStorable (modify fun engine => { engine with user := none } :
      Attempt Engine PersistenceFault Unit) := fun _ hs => hs
  have hcache : KeepsStorable (onCache AssignmentCache.reset) := by
    intro e hs
    obtain ⟨-, hchanges, -⟩ := AssignmentCache.reset_spec
      (Prod.eta (AssignmentCache.reset.outcome e.cache)).symm
    exact hs.changesOnly (t := (AssignmentCache.reset.outcome e.cache).2.store) hchanges (by decide)
  exact hforget.bind fun _ => hcache.bind fun _ => (keepsStorable_delete _).bind fun _ =>
    (keepsStorable_delete _).bind fun _ => keepsStorable_setUser _

theorem keepsStorable_announce (userId : String) : KeepsStorable (announce userId) := by
  have hlast : KeepsStorable (do onStore (Key.appUserId.write userId); return true :
      Attempt Engine PersistenceFault Bool) :=
    (keepsStorable_write (by decide) _).bind fun _ => keepsStorable_pure _
  refine keepsStorable_currentUser.bind fun user => ?_
  by_cases hself : user.id = some userId
  · rw [if_pos hself]
    exact keepsStorable_pure _
  · rw [if_neg hself]
    split
    · exact keepsStorable_reset.bind fun _ => hlast
    · exact hlast

theorem keepsStorable_recordUser (userId : String) : KeepsStorable (recordUser userId) :=
  keepsStorable_currentUser.bind fun _ =>
    (keepsStorable_setUser _).bind fun _ => keepsStorable_setAttributes _

/-! ## Runs -/

/-- What happens to an engine. -/
inductive Turn
  /-- A committed evaluation. -/
  | evaluate (event : Event) (rules : RuleSet)
  | command (command : Command)
  /-- The engine is opened anew over the same store. -/
  | restart
  /-- The collaborators change, and the accesses that will fail. -/
  | surround (device : Device) (reporter : Reporter) (history : History)
      (faults : Faults StoreAccess)

namespace Turn

/-- The engine afterwards. -/
def next : Turn → Engine → Engine
  | .evaluate event rules, e => ((Engine.evaluate event rules .commit).outcome e).2
  | .command asked, e => (asked.run.outcome e).2
  | .restart, e => e.reopen
  | .surround device reporter history faults, e =>
      { setStore { e.store with faults } e with device, reporter, history }

/-- **Whether memory lags behind the store afterwards.**  It begins to when a call to identify
has stored the name and stops at the seed, and ends with a reset, a new start, and a call to
identify that passes the seed. -/
def lags (before : Bool) (e : Engine) : Turn → Bool
  | .command .reset => false
  | .restart => false
  | .command (.identify userId) =>
      match (announce userId).outcome e with
      | (.ok true, d) => !((adjustSeed userId).outcome d).1.isOk
      | _ => before
  | _ => before

end Turn

/-- The engine after some turns. -/
def after : List Turn → Engine → Engine
  | [], e => e
  | turn :: rest, e => after rest (turn.next e)

/-- Whether memory lags behind the store after some turns. -/
def lagsAfter (before : Bool) : List Turn → Engine → Bool
  | [], _ => before
  | turn :: rest, e => lagsAfter (turn.lags before e) rest (turn.next e)

/-- What is said of the engine all along. -/
structure Tracked (lagging : Bool) (e : Engine) : Prop where
  consistent : Consistent e
  stands : Stands lagging e
  storable : Storable e.store.documents

theorem SameUser.tracked (h : SameUser e d) (he : Tracked lagging e) : Tracked lagging d :=
  ⟨h.consistent, he.stands.congr h.currentId (persisted_id_changesOnly h.changes (by decide)),
    he.storable.changesOnly h.changes (by decide)⟩

theorem Tracked.reopen (he : Tracked lagging e) : Tracked false e.reopen :=
  ⟨consistent_reopen e, abreast_of_user_eq_none rfl, he.storable⟩

theorem Tracked.reset (he : Tracked lagging e) : Tracked false (reset.outcome e).2 := by
  obtain ⟨hd, -, hends⟩ := reset_spec (e := e) (Prod.eta _).symm
  refine ⟨hd, hends.elim ?_ ?_, keepsStorable_reset e he.storable⟩
  · rintro done - ⟨hunknown, hgone, -⟩
    exact (currentId_of_user_eq_some hunknown).trans hgone.symm
  · rintro fault - ⟨hnone, -⟩
    exact abreast_of_user_eq_none hnone

theorem Tracked.setAttributes (he : Tracked lagging e) (changes : Attributes) :
    Tracked lagging ((setAttributes changes).outcome e).2 := by
  obtain ⟨hd, hcurrent, -, hends⟩ :=
    setAttributes_spec he.consistent (Prod.eta ((Engine.setAttributes changes).outcome e)).symm
  refine ⟨hd, he.stands.congr hcurrent (hends.elim ?_ ?_),
    keepsStorable_setAttributes changes e he.storable⟩
  · rintro done - ⟨attributes, -, hpersisted⟩
    rw [hpersisted]
  · rintro fault - hpersisted
    rw [hpersisted]

/-- **A call to identify** in its three parts: up to the name, the seed, and the rest. -/
theorem Tracked.identify (he : Tracked lagging e) (userId : String) :
    Tracked ((Turn.command (.identify userId)).lags lagging e) ((identify userId).outcome e).2 := by
  have hstorable := keepsStorable_announce userId e he.storable
  rw [identify_eq_announce, Turn.lags]
  rcases hannounce : (announce userId).outcome e with ⟨fault | stored, e₁⟩
  · obtain ⟨he₁, ⟨hnamed, -⟩ | ⟨-, hstands₁⟩⟩ := announce_spec he.consistent he.stands hannounce
    · cases hnamed
    · rw [hannounce] at hstorable
      rw [outcome_bind_error hannounce]
      exact ⟨he₁, hstands₁, hstorable⟩
  · rw [hannounce] at hstorable
    rw [outcome_bind_ok hannounce]
    obtain ⟨he₁, ⟨hnamed, ⟨user, huser, hnone⟩, hstored⟩ | ⟨hunnamed, hstands₁⟩⟩ :=
      announce_spec he.consistent he.stands hannounce
    · cases hnamed
      dsimp only
      rw [if_pos rfl]
      rcases hseed : (adjustSeed userId).outcome e₁ with ⟨fault | ⟨⟩, e₂⟩
      · obtain ⟨he₂, huser', hid, hchanges⟩ := adjustSeed_spec he₁ hseed
        rw [outcome_bind_error hseed]
        refine ⟨he₂, ⟨?_, userId, hid.trans hstored⟩, hstorable.changesOnly hchanges (by decide)⟩
        rw [currentId_of_user_eq_some (huser'.trans huser), hnone]
      · obtain ⟨he₂, huser', hid, hchanges⟩ := adjustSeed_spec he₁ hseed
        rw [outcome_bind_ok hseed]
        obtain ⟨hd, hcurrent, -, hends⟩ := recordUser_spec he₂ (huser'.trans huser)
          (hid.trans hstored) (Prod.eta ((recordUser userId).outcome e₂)).symm
        refine ⟨hd, hcurrent.trans ?_,
          keepsStorable_recordUser userId e₂ (hstorable.changesOnly hchanges (by decide))⟩
        have hkept : ((recordUser userId).outcome e₂).2.persisted.id = e₂.persisted.id := by
          refine hends.elim ?_ ?_
          · rintro done - ⟨attributes, -, hpersisted⟩
            rw [hpersisted]
          · rintro fault - hpersisted
            rw [hpersisted]
        rw [hkept, hid, hstored]
    · cases stored with
      | true => exact absurd rfl hunnamed
      | false => exact ⟨he₁, hstands₁, hstorable⟩

/-- **What one turn does.** -/
theorem Tracked.next (he : Tracked lagging e) (turn : Turn) :
    Tracked (turn.lags lagging e) (turn.next e) := by
  cases turn with
  | evaluate event rules =>
      exact (composes_keepsUser.evaluate event rules .commit e he.consistent).tracked he
  | restart => exact he.reopen
  | surround device reporter history faults =>
      exact ⟨he.consistent.congr ⟨rfl, rfl, rfl⟩ rfl, he.stands.congr rfl rfl, he.storable⟩
  | command asked =>
      cases asked with
      | preview event rules =>
          exact (composes_keepsUser.runPreview event rules e he.consistent).tracked he
      | preload rules now =>
          exact (composes_keepsUser.runPreload rules now e he.consistent).tracked he
      | reset =>
          rw [Turn.next, Command.run, state_ofStep]
          exact he.reset
      | identify userId =>
          rw [Turn.next, Command.run, state_ofStep]
          exact he.identify userId
      | setAttributes changes =>
          rw [Turn.next, Command.run, state_ofStep]
          exact he.setAttributes changes
      | restore server rules =>
          rw [Turn.next, Command.run, state_ofStep]
          exact (keepsUser_restore server rules e he.consistent).tracked he

theorem Tracked.after (he : Tracked lagging e) (turns : List Turn) :
    Tracked (lagsAfter lagging turns e) (after turns e) := by
  induction turns generalizing lagging e with
  | nil => exact he
  | cons turn rest ih => exact ih (he.next turn)

/-- What the store holds of a user in memory: the attributes as they are stored, and the name,
unless memory lags. -/
theorem Tracked.knownUser_reopen (he : Tracked lagging e) {user : User}
    (huser : e.user = some user) :
    ∃ id, e.persisted.id = .ok id ∧ (id = user.id ↔ lagging = false) ∧
      e.reopen.knownUser = .ok ⟨Dict.map Value.stored user.attributes, id⟩ := by
  have hattributes : ∃ found, Key.userAttributes.stored e.store.documents = .ok found ∧
      found.getD ∅ = Dict.map Value.stored user.attributes := by
    have hmap := he.consistent.attributes user huser
    have hstorable := he.storable
    rw [persisted, Persisted.ofDocuments] at hmap
    dsimp only at hmap
    rcases hstored : Key.userAttributes.stored e.store.documents with fault | (_ | attributes)
    · rw [hstored] at hmap
      cases hmap
    · rw [hstored] at hmap
      exact ⟨none, rfl, Except.ok.inj hmap⟩
    · rw [hstored] at hmap
      exact ⟨some attributes, rfl, (hstorable attributes hstored).symm.trans (Except.ok.inj hmap)⟩
  obtain ⟨found, hfound, hgetD⟩ := hattributes
  have hid : ∃ id, e.persisted.id = .ok id ∧ (id = user.id ↔ lagging = false) := by
    have hstands := he.stands
    cases lagging with
    | false =>
        exact ⟨user.id, hstands.symm.trans (currentId_of_user_eq_some huser), by simp⟩
    | true =>
        obtain ⟨hnobody, name, hname⟩ := hstands
        rw [currentId_of_user_eq_some huser] at hnobody
        refine ⟨some name, hname, ?_⟩
        rw [Except.ok.inj hnobody]
        simp
  obtain ⟨id, hstored, hiff⟩ := hid
  refine ⟨id, hstored, hiff, ?_⟩
  have hname : Key.appUserId.stored e.store.documents = .ok id := hstored
  show (do
    let attributes ← Key.userAttributes.stored e.store.documents
    let id ← Key.appUserId.stored e.store.documents
    return ⟨attributes.getD ∅, id⟩ : Except PersistenceFault User) = _
  rw [hfound, hname]
  exact congrArg (fun attributes => Except.ok (⟨attributes, id⟩ : User)) hgetD

/-- **When a new start changes who the user is.**  After any turns of an engine that was opened
over documents that were read, memory and store agree on the name, and a new start keeps the
current user, **exactly if** memory does not lag: otherwise memory has no name and the store has
one.  A loaded user is the one that the store holds exactly if moreover all of its attributes are
stored as they are. -/
theorem restart_keeps_user_iff
    (hsized : ∀ document, start.store.documents.find? Key.userAttributes.name = some document →
      document.Sized) (turns : List Turn) :
    let e := after turns start.reopen
    let lagging := lagsAfter false turns start.reopen
    (e.reopen.currentId = e.currentId ↔ lagging = false) ∧
    (lagging = true →
      e.currentId = .ok none ∧ ∃ name, e.reopen.currentId = .ok (some name)) ∧
    ∀ user, e.user = some user →
      (e.reopen.knownUser = .ok user ↔
        lagging = false ∧ Dict.map Value.stored user.attributes = user.attributes) := by
  intro e lagging
  have hstart : Tracked false start.reopen :=
    ⟨consistent_reopen start, abreast_of_user_eq_none rfl, storable_of_sized hsized⟩
  have he : Tracked lagging e := hstart.after turns
  have hstored : e.reopen.currentId = e.persisted.id := currentId_of_user_eq_none rfl
  have hstands := he.stands
  refine ⟨?_, ?_, ?_⟩
  · rw [hstored]
    cases hlag : lagging with
    | false =>
        rw [hlag] at hstands
        exact ⟨fun _ => rfl, fun _ => hstands.symm⟩
    | true =>
        rw [hlag] at hstands
        exact ⟨fun hsame => absurd hsame.symm hstands.not_abreast, nofun⟩
  · intro hlag
    rw [hlag] at hstands
    rw [hstored]
    exact hstands
  · intro user huser
    obtain ⟨id, -, hiff, hknown⟩ := he.knownUser_reopen huser
    rw [hknown, ← hiff]
    constructor
    · intro hsame
      have huser' := Except.ok.inj hsame
      exact ⟨congrArg User.id huser', congrArg User.attributes huser'⟩
    · rintro ⟨rfl, hattributes⟩
      rw [hattributes]

/-- An engine over an empty store that cannot read the seed. -/
def seedless : Engine where
  cache := .ofStore
    ⟨∅, Tape.const fun access =>
      if access = .read Key.seed.name then some "busy" else none, []⟩ (Tape.const default)
  history := .empty
  user := none
  device := ⟨Tape.const (some ∅), 0⟩
  reporter := ⟨[], false⟩
  seedFromUserId := true

/-- It stores a name, and still takes the user to be nobody; a new start knows the name. -/
theorem restart_changes_user_of_seedless :
    let e := after [.command (.identify "ada")] seedless.reopen
    (∀ document, seedless.store.documents.find? Key.userAttributes.name = some document →
      document.Sized) ∧
    e.currentId = .ok none ∧ e.reopen.currentId = .ok (some "ada") ∧
      ∀ user, e.user = some user → e.reopen.knownUser ≠ .ok user := by
  intro e
  have hlag : lagsAfter false [.command (.identify "ada")] seedless.reopen = true := by rfl
  have hsized : ∀ document, seedless.store.documents.find? Key.userAttributes.name = some document →
      document.Sized := nofun
  obtain ⟨-, hnames, husers⟩ := restart_keeps_user_iff hsized [.command (.identify "ada")]
  refine ⟨hsized, (hnames hlag).1, by rfl, ?_⟩
  intro user huser hsame
  have hstays := ((husers user huser).mp hsame).1
  rw [hlag] at hstays
  cases hstays

end Engine
end Placement
