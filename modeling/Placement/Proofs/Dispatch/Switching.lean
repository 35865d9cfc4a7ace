import Placement.Proofs.Dispatch.Calls
import Placement.Proofs.Engine.Twins
/-! # Nothing is left of the user before

A call to identify as another user that succeeds leaves the same, **whoever was the user
before** (`Engine.Enrolled`): attributes, name, seed and assignments are new, in memory and in
the store.  So two engines that were alike in everything but the user are twins afterwards, and
no later call tells them apart, whichever accesses fail then (`switch_leaks_nothing`).
-/
namespace Placement
open Attempt Store

namespace AssignmentCache
variable {c d : AssignmentCache}

theorem onStore_write_ok {α : Type} {key : Key α} {x : α}
    (h : (onStore (key.write x)).outcome c = (.ok (), d)) :
    ∃ store, d = { c with store } ∧
      store.documents = c.store.documents.insert key.name (key.encode x) := by
  rw [onStore, outcome_on] at h
  obtain ⟨hr, rfl⟩ := Prod.mk.inj h
  exact ⟨_, rfl, key.write_ok (Prod.ext hr rfl)⟩

/-- A reset that succeeds leaves the seed that it drew, and no assignments. -/
theorem reset_ok (h : reset.outcome c = (.ok (), d)) :
    ∃ store, d = ⟨store, c.seeds.tail, some ⟨c.seeds.head, ∅⟩⟩ ∧
      store.documents = (c.store.documents.insert Key.seed.name
        (Key.seed.encode c.seeds.head)).insert Key.confirmedAssignments.name
          (Key.confirmedAssignments.encode ∅) := by
  rw [outcome_reset] at h
  rcases hclear : (clear c.seeds.head).outcome { c with seeds := c.seeds.tail } with
    ⟨fault | ⟨⟩, c₁⟩
  · rw [hclear] at h
    cases h
  · rw [hclear] at h
    cases h
    obtain ⟨⟨⟩, c₂, hseed, hconfirmed⟩ := outcome_bind_eq_ok hclear
    obtain ⟨store₁, rfl, hdocuments₁⟩ := onStore_write_ok hseed
    obtain ⟨store₂, rfl, hdocuments₂⟩ := onStore_write_ok hconfirmed
    refine ⟨store₂, rfl, ?_⟩
    rw [hdocuments₂, hdocuments₁]

/-- To use a seed, if it succeeds, changes no more than the seed. -/
theorem useSeed_ok {before seed : Seed} {confirmed : Dict Variant}
    (hloaded : c.loaded = some ⟨before, confirmed⟩)
    (hstored : c.store.documents.find? Key.seed.name = some (Key.seed.encode before))
    (h : (useSeed seed).outcome c = (.ok (), d)) :
    ∃ store, d = { c with store, loaded := some ⟨seed, confirmed⟩ } ∧
      ChangesOnly [Key.seed.name] c.store store ∧
      store.documents.find? Key.seed.name = some (Key.seed.encode seed) := by
  rw [useSeed, outcome_bind_ok (load_of_loaded hloaded)] at h
  by_cases hsame : before = seed
  · rw [if_pos hsame] at h
    cases h
    subst hsame
    exact ⟨c.store, by rw [← hloaded], .refl _ _, hstored⟩
  · rw [if_neg hsame] at h
    obtain ⟨⟨⟩, c₁, hwrite, h⟩ := outcome_bind_eq_ok h
    cases h
    obtain ⟨store, rfl, hdocuments⟩ := onStore_write_ok hwrite
    refine ⟨store, rfl, .of_insert hdocuments, ?_⟩
    rw [hdocuments, Dict.find?_insert_self]

end AssignmentCache

namespace Engine
variable {d e f : Engine} {userId : String}

/-! ## What a successful step leaves -/

section
variable {α : Type} {key : Key α}

theorem onStore_write_ok {x : α} (h : (onStore (key.write x)).outcome e = (.ok (), d)) :
    ∃ store, d = setStore store e ∧
      store.documents = e.store.documents.insert key.name (key.encode x) := by
  rw [onStore, outcome_on] at h
  obtain ⟨hr, rfl⟩ := Prod.mk.inj h
  exact ⟨_, rfl, key.write_ok (Prod.ext hr rfl)⟩

theorem onStore_delete_ok (h : (onStore key.delete).outcome e = (.ok (), d)) :
    ∃ store, d = setStore store e ∧ store.documents = e.store.documents.erase key.name := by
  rw [onStore, outcome_on] at h
  obtain ⟨hr, rfl⟩ := Prod.mk.inj h
  exact ⟨_, rfl, key.delete_ok (Prod.ext hr rfl)⟩

theorem onStore_read_ok {x : Option α} (h : (onStore key.read).outcome e = (.ok x, d)) :
    ∃ store, d = setStore store e ∧ store.documents = e.store.documents ∧
      key.stored e.store.documents = .ok x := by
  rw [onStore, outcome_on] at h
  obtain ⟨hr, rfl⟩ := Prod.mk.inj h
  exact ⟨_, rfl, key.read_documents _, key.read_ok (Prod.ext hr rfl)⟩

end

/-- To load the user, if it succeeds, finds the current name. -/
theorem currentUser_ok {user : User} (h : currentUser.outcome e = (.ok user, d)) :
    e.currentId = .ok user.id ∧ ∃ store, d = { setStore store e with user := some user } := by
  cases huser : e.user with
  | some known =>
      rw [outcome_currentUser_of_loaded huser] at h
      cases h
      refine ⟨currentId_of_user_eq_some huser, d.store, ?_⟩
      rw [← huser]
      rfl
  | none =>
      rw [outcome_currentUser_of_not_loaded huser] at h
      obtain ⟨attributes, e₁, hattributes, h⟩ := outcome_bind_eq_ok h
      obtain ⟨id, e₂, hid, h⟩ := outcome_bind_eq_ok h
      cases h
      obtain ⟨store₁, rfl, hdocuments, -⟩ := onStore_read_ok hattributes
      obtain ⟨store₂, rfl, -, hstored⟩ := onStore_read_ok hid
      refine ⟨?_, store₂, rfl⟩
      have hsame : (setStore store₁ e).store.documents = e.store.documents := hdocuments
      rw [currentId_of_user_eq_none huser, ← hstored, hsame]
      rfl

/-- A reset that succeeds leaves a new seed, and nothing of the user. -/
theorem reset_ok (h : reset.outcome e = (.ok (), d)) :
    ∃ store, d = { e with
        cache := ⟨store, e.cache.seeds.tail, some ⟨e.cache.seeds.head, ∅⟩⟩
        user := some .unknown } ∧
      store.documents = (((e.store.documents.insert Key.seed.name
        (Key.seed.encode e.cache.seeds.head)).insert Key.confirmedAssignments.name
        (Key.confirmedAssignments.encode ∅)).erase Key.userAttributes.name).erase
          Key.appUserId.name := by
  have hforget : (modify fun engine => { engine with user := none } :
      Attempt Engine PersistenceFault Unit).outcome e = (.ok (), { e with user := none }) := rfl
  rw [reset, outcome_bind_ok hforget] at h
  obtain ⟨⟨⟩, e₁, hcache, h⟩ := outcome_bind_eq_ok h
  obtain ⟨⟨⟩, e₂, hattributes, h⟩ := outcome_bind_eq_ok h
  obtain ⟨⟨⟩, e₃, hid, h⟩ := outcome_bind_eq_ok h
  cases h
  obtain ⟨cache, rfl, hreset⟩ := onCache_spec hcache
  obtain ⟨store₁, rfl, hdocuments₁⟩ := onStore_delete_ok hattributes
  obtain ⟨store₂, rfl, hdocuments₂⟩ := onStore_delete_ok hid
  obtain ⟨store, rfl, hdocuments⟩ := AssignmentCache.reset_ok hreset
  refine ⟨store₂, rfl, ?_⟩
  rw [hdocuments₂]
  show store₁.documents.erase _ = _
  rw [hdocuments₁]
  exact congrArg (fun documents : Dict Json =>
    (documents.erase Key.userAttributes.name).erase Key.appUserId.name) hdocuments

/-! ## What a successful call leaves -/

/-- **All that is known is the name of the user**, and a seed. -/
structure Enrolled (userId : String) (seed : Seed) (engine : Engine) : Prop where
  user : engine.user =
    some ⟨Dict.ofList [(appUserIdAttribute, .string userId)], some userId⟩
  loaded : engine.cache.loaded = some ⟨seed, ∅⟩
  storedId : engine.store.documents.find? Key.appUserId.name = some (Key.appUserId.encode userId)
  storedAttributes : engine.store.documents.find? Key.userAttributes.name =
    some (Key.userAttributes.encode (Dict.ofList [(appUserIdAttribute, .string userId)]))
  storedSeed : engine.store.documents.find? Key.seed.name = some (Key.seed.encode seed)
  storedConfirmed : engine.store.documents.find? Key.confirmedAssignments.name =
    some (Key.confirmedAssignments.encode ∅)

/-- Only the user and the assignments may differ; a seed was drawn. -/
structure Reseeded (e d : Engine) : Prop where
  seeds : d.cache.seeds = e.cache.seeds.tail
  history : d.history = e.history
  device : d.device = e.device
  reporter : d.reporter = e.reporter
  seedFromUserId : d.seedFromUserId = e.seedFromUserId

/-- The seed of a user who is new. -/
def nextSeed (userId : String) (engine : Engine) : Seed :=
  if engine.seedFromUserId then Seed.ofUserId userId else engine.cache.seeds.head

theorem recordUser_ok {user : User} (h : (recordUser userId).outcome e = (.ok (), d))
    (huser : e.user = some user) (hnone : user.attributes = ∅) :
    ∃ store, d = { setStore store e with
        user := some ⟨Dict.ofList [(appUserIdAttribute, .string userId)], some userId⟩ } ∧
      store.documents = e.store.documents.insert Key.userAttributes.name
        (Key.userAttributes.encode (Dict.ofList [(appUserIdAttribute, .string userId)])) := by
  rw [recordUser, outcome_bind_ok (outcome_currentUser_of_loaded huser)] at h
  obtain ⟨⟨⟩, e₁, hset, h⟩ := outcome_bind_eq_ok h
  cases hset
  rw [setAttributes, outcome_bind_ok (outcome_currentUser_of_loaded rfl)] at h
  obtain ⟨⟨⟩, e₂, hwrite, h⟩ := outcome_bind_eq_ok h
  cases h
  obtain ⟨store, rfl, hdocuments⟩ := onStore_write_ok hwrite
  have hattributes : change user.attributes
      (Dict.ofList [(appUserIdAttribute, .string userId)]) =
        Dict.ofList [(appUserIdAttribute, .string userId)] := by
    rw [hnone]
    rfl
  rw [hattributes] at hdocuments ⊢
  exact ⟨store, rfl, hdocuments⟩

theorem adjustSeed_ok {seed : Seed} {confirmed : Dict Variant}
    (h : (adjustSeed userId).outcome e = (.ok (), d))
    (hloaded : e.cache.loaded = some ⟨seed, confirmed⟩)
    (hstored : e.store.documents.find? Key.seed.name = some (Key.seed.encode seed)) :
    ∃ store, d = { e with cache := { e.cache with
        store
        loaded := some ⟨if e.seedFromUserId then Seed.ofUserId userId else seed, confirmed⟩ } } ∧
      ChangesOnly [Key.seed.name] e.store store ∧
      store.documents.find? Key.seed.name =
        some (Key.seed.encode (if e.seedFromUserId then Seed.ofUserId userId else seed)) := by
  rw [adjustSeed, outcome_bind, outcome_get] at h
  dsimp only at h
  by_cases hset : e.seedFromUserId = true
  · rw [if_pos hset] at h ⊢
    obtain ⟨cache, rfl, huse⟩ := onCache_spec h
    obtain ⟨store, rfl, hchanges, hfound⟩ := AssignmentCache.useSeed_ok hloaded hstored huse
    exact ⟨store, rfl, hchanges, hfound⟩
  · rw [if_neg hset] at h ⊢
    cases h
    exact ⟨d.store, by rw [← hloaded]; rfl, .refl _ _, hstored⟩

/-- **Whoever was the user before**: a call to identify as another user, if it succeeds, leaves
the name and the next seed. -/
theorem identify_other_ok {name : String} (hcurrent : e.currentId = .ok (some name))
    (hother : name ≠ userId) (h : (identify userId).outcome e = (.ok (), d)) :
    Enrolled userId (nextSeed userId e) d ∧ Reseeded e d := by
  rw [identify_eq] at h
  obtain ⟨user, e₁, hload, h⟩ := outcome_bind_eq_ok h
  obtain ⟨hid, store₁, rfl⟩ := currentUser_ok hload
  have hname : user.id = some name := Except.ok.inj (hid.symm.trans hcurrent)
  rw [hname, if_neg (fun hself => hother (Option.some.inj hself))] at h
  dsimp only [Option.isSome] at h
  rw [if_pos rfl, enroll_eq] at h
  obtain ⟨⟨⟩, e₂, hreset, h⟩ := outcome_bind_eq_ok h
  obtain ⟨⟨⟩, e₃, hwrite, h⟩ := outcome_bind_eq_ok h
  obtain ⟨⟨⟩, e₄, hadjust, hrecord⟩ := outcome_bind_eq_ok h
  obtain ⟨store₂, rfl, hdocuments₂⟩ := reset_ok hreset
  obtain ⟨store₃, rfl, hdocuments₃⟩ := onStore_write_ok hwrite
  have hwritten : store₃.documents = store₂.documents.insert Key.appUserId.name
      (Key.appUserId.encode userId) := hdocuments₃
  have hcleared : store₃.documents.find? Key.seed.name =
      some (Key.seed.encode e.cache.seeds.head) := by
    rw [hwritten, hdocuments₂, Dict.find?_insert, if_neg (by decide), Dict.find?_erase,
      if_neg (by decide), Dict.find?_erase, if_neg (by decide), Dict.find?_insert,
      if_neg (by decide), Dict.find?_insert_self]
    rfl
  have hempty : store₃.documents.find? Key.confirmedAssignments.name =
      some (Key.confirmedAssignments.encode ∅) := by
    rw [hwritten, hdocuments₂, Dict.find?_insert, if_neg (by decide), Dict.find?_erase,
      if_neg (by decide), Dict.find?_erase, if_neg (by decide), Dict.find?_insert_self]
  have hnamed : store₃.documents.find? Key.appUserId.name =
      some (Key.appUserId.encode userId) := by
    rw [hwritten, Dict.find?_insert_self]
  obtain ⟨store₄, rfl, hadjusts, hseed⟩ := adjustSeed_ok hadjust rfl hcleared
  obtain ⟨store₅, rfl, hrecorded⟩ := recordUser_ok hrecord rfl rfl
  have hrecords : ChangesOnly [Key.userAttributes.name] store₄ store₅ := .of_insert hrecorded
  refine ⟨⟨rfl, rfl, ?_, ?_, ?_, ?_⟩, ⟨rfl, rfl, rfl, rfl, rfl⟩⟩
  · exact (hrecords _ (by decide)).trans ((hadjusts _ (by decide)).trans hnamed)
  · show store₅.documents.find? _ = _
    rw [hrecorded, Dict.find?_insert_self]
  · exact (hrecords _ (by decide)).trans hseed
  · exact (hrecords _ (by decide)).trans ((hadjusts _ (by decide)).trans hempty)

/-! ## Two engines -/

/-- Other accesses to the store will fail. -/
def meeting (faults : Faults StoreAccess) (engine : Engine) : Engine :=
  setStore { engine.store with faults } engine

/-- **Alike in all but the user**, the assignments and the store: the same events happened, the
same will fail of the history, the same seeds will be drawn, and the collaborators are alike. -/
structure AlikeBesides (e d : Engine) : Prop where
  history : History.Twins e.history d.history
  seeds : d.cache.seeds = e.cache.seeds
  device : d.device.answers = e.device.answers
  receiver : d.reporter.broken = e.reporter.broken
  seedFromUserId : d.seedFromUserId = e.seedFromUserId

theorem AlikeBesides.nextSeed_eq (h : AlikeBesides e d) (userId : String) :
    nextSeed userId d = nextSeed userId e := by
  rw [nextSeed, nextSeed, h.seedFromUserId, h.seeds]

/-- **The same new user makes them twins.** -/
theorem AlikeBesides.twins {e' d' : Engine} {seed : Seed} (h : AlikeBesides e d)
    (he : Enrolled userId seed e') (hd : Enrolled userId seed d') (hfrom : Reseeded e e')
    (hfrom' : Reseeded d d') (faults : Faults StoreAccess) :
    Twins e.reporter.fires d.reporter.fires (e'.meeting faults) (d'.meeting faults) := by
  have hdocuments : ∀ name ∈ keys,
      d'.store.documents.find? name = e'.store.documents.find? name := by
    intro name hname
    simp only [keys, userKeys, assignmentKeys, List.cons_append, List.nil_append, List.mem_cons,
      List.not_mem_nil, or_false] at hname
    rcases hname with rfl | rfl | rfl | rfl
    · rw [he.storedAttributes, hd.storedAttributes]
    · rw [he.storedId, hd.storedId]
    · rw [he.storedSeed, hd.storedSeed]
    · rw [he.storedConfirmed, hd.storedConfirmed]
  refine ⟨⟨⟨hdocuments, rfl⟩, ?_, hd.loaded.trans he.loaded.symm⟩, ?_, hd.user.trans he.user.symm,
    ?_, ?_, ⟨[], ?_, ?_⟩, ?_⟩
  · show d'.cache.seeds = e'.cache.seeds
    rw [hfrom'.seeds, hfrom.seeds, h.seeds]
  · show History.Twins e'.history d'.history
    rw [hfrom'.history, hfrom.history]
    exact h.history
  · show d'.device.answers = e'.device.answers
    rw [hfrom'.device, hfrom.device, h.device]
  · show d'.reporter.broken = e'.reporter.broken
    rw [hfrom'.reporter, hfrom.reporter, h.receiver]
  · show e'.reporter.fires = _
    rw [hfrom.reporter, List.append_nil]
  · show d'.reporter.fires = _
    rw [hfrom'.reporter, List.append_nil]
  · show d'.seedFromUserId = e'.seedFromUserId
    rw [hfrom'.seedFromUserId, hfrom.seedFromUserId, h.seedFromUserId]

/-- To identify as another user is done only if all its steps are. -/
theorem identify_of_done {engine : Engine}
    (h : (Command.identify userId).run.outcome e = (.ok .done, engine)) :
    (identify userId).outcome e = (.ok (), engine) := by
  rw [Command.run, Reply.ofStep, outcome_bind, outcome_caught] at h
  rcases hstep : (identify userId).outcome e with ⟨fault | ⟨⟩, d⟩
  · rw [hstep] at h
    cases h
  · rw [hstep] at h
    cases h
    rfl

end Engine

namespace Dispatcher
variable {d e : Dispatcher} {userId : String}
open Engine

/-! ## Two dispatchers -/

theorem unnoticed_twins (before before' : List Fire) : Unnoticed (Engine.Twins before before') where
  run job := by
    cases job with
    | shared key event rules =>
        exact ((composes_blindTo_twins before before').evaluate event rules .commit).bind
          fun _ => blindTo_pure _
    | single caller asked => exact blindTo_run_twins asked
  within h _ _ := ⟨h.cache, h.history, h.user, rfl, rfl, h.fires, h.seedFromUserId⟩
  reopen h := h.reopen

/-- Other accesses to the store will fail. -/
def meeting (faults : Faults StoreAccess) (d : Dispatcher) : Dispatcher :=
  { d with engine := d.engine.meeting faults }

/-- **Nothing is left of the user before.**  Take any two dispatchers whose engines are alike in
all but the user: each has a current user, not the one to come, and what is known of these two
may differ in memory and in the store.  If a call to identify as the same other user is done
in both, then whatever calls are made afterwards, and whichever accesses to the store fail, the
answers are the same in both, the same fires are reported from then on, and all four documents
are the same. -/
theorem switch_leaks_nothing (hd : Ready d) (he : Ready e) (hrules : e.rules = d.rules)
    (hbesides : AlikeBesides d.engine e.engine)
    (hother : ∃ name, d.engine.currentId = .ok (some name) ∧ name ≠ userId)
    (hother' : ∃ name, e.engine.currentId = .ok (some name) ∧ name ≠ userId)
    (hdone : (d.call (.command (.identify userId))).1 = .reply .done)
    (hdone' : (e.call (.command (.identify userId))).1 = .reply .done)
    (faults : Faults StoreAccess) (calls : List Call) :
    let run := callAll calls ((d.call (.command (.identify userId))).2.meeting faults)
    let run' := callAll calls ((e.call (.command (.identify userId))).2.meeting faults)
    run'.1 = run.1 ∧
      (∃ fires, run.2.engine.reporter.fires = d.engine.reporter.fires ++ fires ∧
        run'.2.engine.reporter.fires = e.engine.reporter.fires ++ fires) ∧
      ∀ name ∈ keys,
        run'.2.engine.store.documents.find? name = run.2.engine.store.documents.find? name := by
  obtain ⟨name, hcurrent, hname⟩ := hother
  obtain ⟨name', hcurrent', hname'⟩ := hother'
  obtain ⟨engine, hrun, hcall⟩ := hd.done_of_call hdone
  obtain ⟨engine', hrun', hcall'⟩ := he.done_of_call hdone'
  obtain ⟨henrolled, hfrom⟩ := identify_other_ok hcurrent hname (identify_of_done hrun)
  obtain ⟨henrolled', hfrom'⟩ := identify_other_ok hcurrent' hname' (identify_of_done hrun')
  rw [hbesides.nextSeed_eq] at henrolled'
  have hready : Ready (d.call (.command (.identify userId))).2 := by
    rw [hd.call_eq rfl]
    exact hd.attend _
  have hready' : Ready (e.call (.command (.identify userId))).2 := by
    rw [he.call_eq rfl]
    exact he.attend _
  rw [hcall] at hready ⊢
  rw [hcall'] at hready' ⊢
  have hpaired : Paired (Engine.Twins d.engine.reporter.fires e.engine.reporter.fires)
      ((d.answering engine .idle (some .done)).meeting faults)
      ((e.answering engine' .idle (some .done)).meeting faults) :=
    ⟨hready.congr _ _, hready'.congr _ _,
      hbesides.twins henrolled henrolled' hfrom hfrom' faults, hrules, rfl⟩
  obtain ⟨hanswers, hlast⟩ := hpaired.callAll (unnoticed_twins _ _) calls
  exact ⟨hanswers, hlast.engine.fires, hlast.engine.cache.store.documents⟩

/-- A user with a name who has been assigned a variant. -/
def welcomed (name : String) (variant : Variant) : Dispatcher :=
  start
    { welcoming false with
      cache := .ofStore
        (.ofDocuments (Dict.ofList
          [(Key.appUserId.name, Key.appUserId.encode name),
            (Key.confirmedAssignments.name,
              Key.confirmedAssignments.encode (Dict.ofList [(welcome.experimentId, variant)]))]))
        (Tape.const default) }
    welcomeRules

/-- Ada was held out. -/
def ada : Dispatcher := welcomed "ada" ⟨"out", .holdout, none⟩

/-- Bob was not. -/
def bob : Dispatcher := welcomed "bob" ⟨"gold", .treatment, some "gold"⟩

/-- What Eve is shown after the user of a dispatcher. -/
def shownToEve (d : Dispatcher) : List Answer :=
  (callAll [.evaluate firstLaunch] ((d.call (.command (.identify "eve"))).2.meeting .none)).1

/-- Neither shows once Eve is the user. -/
theorem eve_leaks_nothing :
    shownToEve bob = shownToEve ada ∧
      shownToEve ada =
        [.reply (.outcome (.matched welcome ⟨"gold", .treatment, some "gold"⟩))] ∧
      (ada.call (.evaluate firstLaunch)).1 =
        .reply (.outcome (.noMatch ⟨.holdout, welcome.experimentId⟩)) := by
  have hready : Ready ada := .start _ _
  have hready' : Ready bob := .start _ _
  have hbesides : AlikeBesides ada.engine bob.engine := ⟨⟨rfl, rfl⟩, rfl, rfl, rfl, rfl⟩
  have hada : ∃ name, ada.engine.currentId = .ok (some name) ∧ name ≠ "eve" :=
    ⟨"ada", rfl, by decide⟩
  have hbob : ∃ name, bob.engine.currentId = .ok (some name) ∧ name ≠ "eve" :=
    ⟨"bob", rfl, by decide⟩
  have hdone : (ada.call (.command (.identify "eve"))).1 = .reply .done := rfl
  have hdone' : (bob.call (.command (.identify "eve"))).1 = .reply .done := rfl
  have hleaks := switch_leaks_nothing hready hready' rfl hbesides hada hbob hdone hdone'
    .none [.evaluate firstLaunch]
  exact ⟨hleaks.1, rfl, rfl⟩

end Dispatcher
end Placement
