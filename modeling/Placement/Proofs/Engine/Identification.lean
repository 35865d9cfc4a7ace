import Placement.Proofs.Engine.Consistency
/-! # Identifying as a user

To identify as a user changes what is stored in several steps, each of which may fail.
`Engine.aim` is what it should lead to.  A call that does all its steps leads there
(`identify_spec`); **a call that fails leaves the aim where it was**, so that another call
would lead there too, if it did all its steps.  But a call that finds the user on record
does none.
-/
namespace Placement
open Attempt Store

namespace Persisted

/-- The user of whom this is stored is forgotten. -/
def forgotten (p : Persisted) : Persisted := { p with attributes := .ok ∅, confirmed := .ok ∅ }

/-- What is stored once it is about a user with a name: **name, seed and attribute of the
user**; other attributes and the confirmed assignments stay. -/
def named (userId : String) (p : Persisted) : Persisted where
  id := .ok (some userId)
  seed := .ok (some (Seed.ofUserId userId))
  attributes := p.attributes.map (Dict.insert · Engine.appUserIdAttribute (.string userId))
  confirmed := p.confirmed

theorem named_congr {p q : Persisted} (hattributes : p.attributes = q.attributes)
    (hconfirmed : p.confirmed = q.confirmed) (userId : String) :
    p.named userId = q.named userId := by
  rw [named, named, hattributes, hconfirmed]

end Persisted

namespace Engine
variable {d e : Engine} {userId : String}

/-- **What the store should hold** once the engine has identified as a user: of another
user, if there is a current one, nothing is kept. -/
def aim (userId : String) (engine : Engine) : Persisted :=
  match engine.currentId with
  | .ok (some name) =>
      if name = userId then engine.persisted.named userId
      else engine.persisted.forgotten.named userId
  | _ => engine.persisted.named userId

/-- Another name is stored, behind a memory without one. -/
def Hides (userId : String) (engine : Engine) : Prop :=
  engine.currentId = .ok none ∧ ∃ name, engine.persisted.id = .ok (some name) ∧ name ≠ userId

theorem aim_of_nobody (h : e.currentId = .ok none) : aim userId e = e.persisted.named userId := by
  rw [aim, h]

theorem aim_of_self (h : e.currentId = .ok (some userId)) :
    aim userId e = e.persisted.named userId := by
  rw [aim, h]
  exact if_pos rfl

theorem aim_of_other {name : String} (h : e.currentId = .ok (some name)) (hname : name ≠ userId) :
    aim userId e = e.persisted.forgotten.named userId := by
  rw [aim, h]
  exact if_neg hname

theorem aim_congr (hpersisted : d.persisted = e.persisted) (hid : d.currentId = e.currentId) :
    aim userId d = aim userId e := by
  rw [aim, aim, hpersisted, hid]

theorem Hides.congr (h : Hides userId d) (hpersisted : d.persisted = e.persisted)
    (hid : d.currentId = e.currentId) : Hides userId e := by
  obtain ⟨hnone, name, hstored, hname⟩ := h
  exact ⟨hid ▸ hnone, name, hpersisted ▸ hstored, hname⟩

/-! ## The steps of a call -/

theorem change_single (attributes : Attributes) (userId : String) :
    change attributes (Dict.ofList [(appUserIdAttribute, .string userId)]) =
      Dict.insert attributes appUserIdAttribute (.string userId) := rfl

/-- The steps in memory, and the attribute. -/
def recordUser (userId : String) : Attempt Engine PersistenceFault Unit := do
  setUser { ← currentUser with id := some userId }
  setAttributes (Dict.ofList [(appUserIdAttribute, .string userId)])

/-- The steps that follow once no other user is known. -/
def enroll (userId : String) : Attempt Engine PersistenceFault Unit := do
  onStore (Key.appUserId.write userId)
  if (← get).seedFromUserId then onCache (AssignmentCache.useSeed (Seed.ofUserId userId))
  recordUser userId

theorem identify_eq (userId : String) :
    identify userId = (do
      let user ← currentUser
      if user.id = some userId then return ()
      if user.id.isSome then reset
      enroll userId) := by
  rfl

/-- The step on the seed. -/
def adjustSeed (userId : String) : Attempt Engine PersistenceFault Unit := do
  if (← get).seedFromUserId then onCache (AssignmentCache.useSeed (Seed.ofUserId userId))

theorem enroll_eq (userId : String) :
    enroll userId = (do
      onStore (Key.appUserId.write userId)
      adjustSeed userId
      recordUser userId) := by
  rw [enroll, adjustSeed, bind_assoc]
  refine congrArg (onStore (Key.appUserId.write userId) >>= ·) (funext fun _ => ?_)
  refine congrArg (get >>= ·) (funext fun engine => ?_)
  by_cases hset : engine.seedFromUserId = true
  · rw [if_pos hset, if_pos hset]
  · rw [if_neg hset, if_neg hset, pure_bind]

theorem recordUser_spec {r : Except PersistenceFault Unit} {user : User} (he : Consistent e)
    (huser : e.user = some user) (hid : e.persisted.id = .ok (some userId))
    (h : (recordUser userId).outcome e = (r, d)) :
    Consistent d ∧ d.currentId = .ok (some userId) ∧ d.seedFromUserId = e.seedFromUserId ∧
      Ends r
        (fun () => ∃ attributes, e.persisted.attributes = .ok attributes ∧
          d.persisted = { e.persisted with
            attributes := .ok (attributes.insert appUserIdAttribute (.string userId)) })
        (d.persisted = e.persisted) := by
  let e₁ : Engine := { e with user := some { user with id := some userId } }
  have hset : (do setUser { ← currentUser with id := some userId } :
      Attempt Engine PersistenceFault Unit).outcome e = (.ok (), e₁) := by
    rw [outcome_bind_ok (outcome_currentUser_of_loaded huser)]
    rfl
  have he₁ : Consistent e₁ := by
    refine ⟨he.cache, ?_, ?_⟩
    · rintro _ ⟨⟩
      exact he.attributes user huser
    · rintro _ name ⟨⟩ hname
      cases hname
      exact hid
  have hlast : (setAttributes (Dict.ofList [(appUserIdAttribute, .string userId)])).outcome e₁ =
      (r, d) := by
    rw [recordUser, outcome_bind_ok (outcome_currentUser_of_loaded huser)] at h
    exact h
  obtain ⟨hd, hcurrent, hflag, hends⟩ := setAttributes_spec he₁ hlast
  refine ⟨hd, hcurrent, hflag, ?_⟩
  cases r with
  | error fault => exact hends
  | ok done =>
      obtain ⟨attributes, hattributes, hpersisted⟩ := hends
      refine ⟨_, hattributes, ?_⟩
      rw [change_single, Dict.map_insert] at hpersisted
      exact hpersisted

/-- Using the seed of a user leaves the user. -/
theorem useSeed_spec {r : Except PersistenceFault Unit} {seed : Seed} (he : Consistent e)
    (h : (onCache (AssignmentCache.useSeed seed)).outcome e = (r, d)) :
    Consistent d ∧ d.user = e.user ∧ d.seedFromUserId = e.seedFromUserId ∧
      d.persisted = { e.persisted with seed := d.persisted.seed } ∧
      (r = .ok () → d.persisted.seed = .ok (some seed)) := by
  obtain ⟨cache, rfl, huse⟩ := onCache_spec h
  obtain ⟨hc, hchanges, hused⟩ := AssignmentCache.useSeed_spec he.cache huse
  have hstore : ChangesOnly [Key.seed.name] e.store (Engine.store { e with cache }) := hchanges
  refine ⟨he.setCache hc (hchanges.mono (by simp)), rfl, rfl, ?_, hused⟩
  exact Persisted.ext (persisted_id_changesOnly hstore (by decide)) rfl
    (persisted_attributes_changesOnly hstore (by decide))
    (persisted_confirmed_changesOnly hstore (by decide))

/-- A name may be stored as long as memory has none. -/
theorem Consistent.storeName {user : User} (he : Consistent e) (huser : e.user = some user)
    (hnone : user.id = none) (hmemory : SameMemory e d)
    (hdocuments : d.store.documents = e.store.documents.insert Key.appUserId.name
      (Key.appUserId.encode userId)) : Consistent d := by
  refine ⟨AssignmentCache.coherent_changesOnly he.cache hmemory.loaded (.of_insert hdocuments)
    (by decide) (by decide), ?_, ?_⟩
  · intro user' huser'
    rw [persisted_insert_id hdocuments]
    exact he.attributes user' (hmemory.user.symm.trans huser')
  · intro user' name huser' hname
    rw [hmemory.user, huser] at huser'
    cases huser'
    rw [hnone] at hname
    cases hname

/-- **Enrolling** leads to what is aimed at, or leaves attributes and assignments. -/
theorem enroll_spec {r : Except PersistenceFault Unit} {user : User} (he : Consistent e)
    (huser : e.user = some user) (hnone : user.id = none)
    (h : (enroll userId).outcome e = (r, d)) :
    Consistent d ∧ d.seedFromUserId = e.seedFromUserId ∧
      Ends r
        (fun () => e.seedFromUserId = true → d.persisted = e.persisted.named userId ∧
          ∃ attributes, e.persisted.attributes = .ok attributes)
        ((d.currentId = .ok none ∧
            (d.persisted.id = e.persisted.id ∨ d.persisted.id = .ok (some userId)) ∨
          d.currentId = .ok (some userId)) ∧
        d.persisted.attributes = e.persisted.attributes ∧
        d.persisted.confirmed = e.persisted.confirmed) := by
  rw [enroll] at h
  have hcurrent : e.currentId = .ok none := by
    rw [currentId_of_user_eq_some huser, hnone]
  rcases hwrite : (onStore (Key.appUserId.write userId)).outcome e with ⟨fault | ⟨⟩, e₁⟩
  · rw [outcome_bind_error hwrite] at h
    cases h
    obtain ⟨hmemory, hdocuments⟩ := write_spec hwrite
    have hpersisted := persisted_of_documents_eq hdocuments
    have hid := congrArg Persisted.id hpersisted
    exact ⟨he.congr hmemory hdocuments, hmemory.seedFromUserId,
      .inl ⟨(hmemory.currentId hid).trans hcurrent, .inl hid⟩,
      congrArg Persisted.attributes hpersisted, congrArg Persisted.confirmed hpersisted⟩
  -- From here on the name is stored, but not in memory: nobody is current until the seed is
  -- stored as well.
  · obtain ⟨hmemory, hdocuments⟩ := write_spec hwrite
    have hpersisted := persisted_insert_id hdocuments
    have huser₁ : e₁.user = some user := hmemory.user.trans huser
    have he₁ := he.storeName huser hnone hmemory hdocuments
    rw [outcome_bind_ok hwrite, outcome_bind, outcome_get] at h
    dsimp only at h
    by_cases hflag : e₁.seedFromUserId = true
    · rw [if_pos hflag] at h
      rcases hseed : (onCache (AssignmentCache.useSeed (Seed.ofUserId userId)) :
        Attempt Engine PersistenceFault Unit).outcome e₁ with ⟨fault | ⟨⟩, e₂⟩
      · rw [outcome_bind_error hseed] at h
        cases h
        obtain ⟨hd, huser₂, hflag', hseeded, -⟩ := useSeed_spec he₁ hseed
        rw [hpersisted] at hseeded
        refine ⟨hd, hflag'.trans hmemory.seedFromUserId, .inl ⟨?_, .inr ?_⟩, ?_, ?_⟩
        · rw [currentId_of_user_eq_some (huser₂.trans huser₁), hnone]
        · rw [hseeded]
        · rw [hseeded]
        · rw [hseeded]
      · rw [outcome_bind_ok hseed] at h
        obtain ⟨he₂, huser₂, hflag', hseeded, hused⟩ := useSeed_spec he₁ hseed
        rw [hpersisted, hused rfl] at hseeded
        obtain ⟨hd, hcurrent', hflag'', hends⟩ :=
          recordUser_spec he₂ (huser₂.trans huser₁) (congrArg Persisted.id hseeded) h
        refine ⟨hd, hflag''.trans (hflag'.trans hmemory.seedFromUserId), ?_⟩
        rw [hseeded] at hends
        cases r with
        | error fault =>
            refine ⟨.inr hcurrent', ?_, ?_⟩
            · rw [hends]
            · rw [hends]
        | ok done =>
            intro _
            obtain ⟨attributes, hstored, hnamed⟩ := hends
            refine ⟨?_, attributes, hstored⟩
            rw [hnamed, Persisted.named, show e.persisted.attributes = .ok attributes from hstored]
            rfl
    · rw [if_neg hflag] at h
      obtain ⟨hd, hcurrent', hflag', hends⟩ :=
        recordUser_spec he₁ huser₁ (congrArg Persisted.id hpersisted) h
      refine ⟨hd, hflag'.trans hmemory.seedFromUserId, ?_⟩
      cases r with
      | error fault =>
          refine ⟨.inr hcurrent', ?_, ?_⟩
          · rw [hends, hpersisted]
          · rw [hends, hpersisted]
      | ok done =>
          intro hset
          exact absurd (hmemory.seedFromUserId.trans hset) hflag

/-! ## A whole call -/

/-- Enrolling reaches the aim, or leaves it: nobody else is known before or after. -/
theorem enroll_aim {r : Except PersistenceFault Unit} {user : User} (he : Consistent e)
    (huser : e.user = some user) (hnone : user.id = none)
    (h : (enroll userId).outcome e = (r, d)) :
    Consistent d ∧ d.seedFromUserId = e.seedFromUserId ∧
      Ends r
        (fun () => e.seedFromUserId = true → d.persisted = e.persisted.named userId ∧
          ∃ attributes, d.persisted.attributes =
            .ok (Dict.insert attributes appUserIdAttribute (.string userId)))
        (aim userId d = e.persisted.named userId ∧ (Hides userId d → Hides userId e)) := by
  obtain ⟨hd, hflag, hends⟩ := enroll_spec he huser hnone h
  refine ⟨hd, hflag, ?_⟩
  cases r with
  | ok done =>
      intro hset
      obtain ⟨hnamed, attributes, hattributes⟩ := hends hset
      refine ⟨hnamed, attributes, ?_⟩
      rw [hnamed, Persisted.named, hattributes]
      rfl
  | error fault =>
      obtain ⟨⟨hnobody, hid⟩ | hself, hattributes, hconfirmed⟩ := hends
      · refine ⟨?_, ?_⟩
        · rw [aim_of_nobody hnobody, Persisted.named_congr hattributes hconfirmed]
        · rintro ⟨-, name, hstored, hname⟩
          rcases hid with hsame | hwritten
          · refine ⟨?_, name, hsame.symm.trans hstored, hname⟩
            rw [currentId_of_user_eq_some huser, hnone]
          · rw [hwritten] at hstored
            cases hstored
            exact absurd rfl hname
      · refine ⟨?_, ?_⟩
        · rw [aim_of_self hself, Persisted.named_congr hattributes hconfirmed]
        · rintro ⟨hnobody, -⟩
          rw [hself] at hnobody
          cases hnobody

/-- **A call to identify** that succeeds does nothing, if the user is on record, or else
reaches its aim.  One that fails leaves the aim, and hides no other name. -/
theorem identify_spec {r : Except PersistenceFault Unit} (he : Consistent e)
    (h : (identify userId).outcome e = (r, d)) :
    Consistent d ∧ d.seedFromUserId = e.seedFromUserId ∧
      Ends r
        (fun () =>
          (e.currentId = .ok (some userId) → d.persisted = e.persisted) ∧
          (e.currentId ≠ .ok (some userId) → e.seedFromUserId = true →
            d.persisted = aim userId e ∧ ∃ attributes, d.persisted.attributes =
              .ok (Dict.insert attributes appUserIdAttribute (.string userId))))
        (aim userId d = aim userId e ∧ (Hides userId d → Hides userId e)) := by
  rw [identify_eq] at h
  rcases hload : currentUser.outcome e with ⟨fault | user, e₁⟩
  · rw [outcome_bind_error hload] at h
    cases h
    obtain ⟨hd, hpersisted, hid, hflag, -⟩ := currentUser_spec he hload
    exact ⟨hd, hflag, aim_congr hpersisted hid, fun hhides => hhides.congr hpersisted hid⟩
  · obtain ⟨he₁, hpersisted, hid, hflag, huser⟩ := currentUser_spec he hload
    have hcurrent : e.currentId = .ok user.id := by
      rw [← hid, currentId_of_user_eq_some huser]
    have haim : aim userId e₁ = aim userId e := aim_congr hpersisted hid
    rw [outcome_bind_ok hload] at h
    by_cases hself : user.id = some userId
    · rw [if_pos hself] at h
      cases h
      refine ⟨he₁, hflag, fun _ => hpersisted, fun hother => ?_⟩
      exact absurd (hcurrent.trans (congrArg Except.ok hself)) hother
    · have hoff : e.currentId ≠ .ok (some userId) := by
        rw [hcurrent]
        exact fun heq => hself (Except.ok.inj heq)
      rw [if_neg hself] at h
      cases hknown : user.id with
      | none =>
          rw [hknown] at h
          have hnamed : aim userId e = e₁.persisted.named userId := by
            rw [← haim, aim_of_nobody (hid.trans (hcurrent.trans (congrArg Except.ok hknown)))]
          obtain ⟨hd, hflag', hends⟩ := enroll_aim he₁ huser hknown h
          refine ⟨hd, hflag'.trans hflag, ?_⟩
          rw [hnamed]
          cases r with
          | error fault =>
              exact ⟨hends.1, fun hhides => (hends.2 hhides).congr hpersisted hid⟩
          | ok done =>
              exact ⟨fun hon => absurd hon hoff, fun _ hset => hends (hflag.trans hset)⟩
      | some name =>
          have hother : name ≠ userId := fun hname => hself (hname ▸ hknown)
          have hcurrent' : e₁.currentId = .ok (some name) :=
            hid.trans (hcurrent.trans (congrArg Except.ok hknown))
          rw [hknown] at h
          dsimp only [Option.isSome] at h
          rw [if_pos rfl] at h
          rw [← haim, aim_of_other hcurrent' hother]
          rcases hreset : reset.outcome e₁ with ⟨fault | ⟨⟩, e₂⟩
          · rw [outcome_bind_error hreset] at h
            cases h
            obtain ⟨hd, hflag', hnone, hsame⟩ := reset_spec hreset
            -- The name is deleted last, so the same user is forgotten again.
            have hagain : d.currentId = .ok (some name) := by
              rw [currentId_of_user_eq_none hnone, hsame, he₁.id user name huser hknown]
            refine ⟨hd, hflag'.trans hflag, ?_, ?_⟩
            · rw [aim_of_other hagain hother]
              exact Persisted.named_congr rfl rfl userId
            · rintro ⟨hnobody, -⟩
              rw [hagain] at hnobody
              cases hnobody
          · obtain ⟨he₂, hflag', hunknown, hgone, hattributes, hconfirmed⟩ := reset_spec hreset
            rw [outcome_bind_ok hreset] at h
            have hforgotten : e₂.persisted.named userId = e₁.persisted.forgotten.named userId :=
              Persisted.named_congr hattributes hconfirmed userId
            obtain ⟨hd, hflag'', hends⟩ := enroll_aim he₂ hunknown rfl h
            refine ⟨hd, hflag''.trans (hflag'.trans hflag), ?_⟩
            rw [hforgotten] at hends
            cases r with
            | error fault =>
                refine ⟨hends.1, fun hhides => ?_⟩
                obtain ⟨-, name', hstored, -⟩ := hends.2 hhides
                rw [hgone] at hstored
                cases hstored
            | ok done =>
                exact ⟨fun hon => absurd hon hoff,
                  fun _ hset => hends (hflag'.trans (hflag.trans hset))⟩

end Engine
end Placement
