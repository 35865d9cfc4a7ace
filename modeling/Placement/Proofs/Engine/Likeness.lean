import Placement.Proofs.Assignments.Likeness
import Placement.Proofs.Engine.Committing
/-! # Engines that are alike

Two engines are **alike** if they differ at most in what they have loaded so far, and in how
often device and history were asked.  Where neither the store nor the history fails and the
store holds a seed, **no job tells them apart** (`blindTo_run`): it has the same result in
both, and leaves engines that are alike.

To preview an event and to preload paywalls leave an engine that is like the one before, once it
faces the same device (`keepsLikeness_run`): of the conditions only the questions are left, and of
the rest what was loaded.
-/
namespace Placement.Engine
open Attempt AssignmentCache Store
variable {ε δ α β : Type} {d e f : Engine}

/-- Neither store nor history fails, the store holds a seed, and memory agrees with it. -/
structure Steady (engine : Engine) : Prop where
  cache : engine.cache.Serves
  coherent : engine.cache.Coherent
  history : engine.history.faults = .none

/-- The rest of the engine does not matter. -/
theorem Steady.congr (h : Steady e) (hcache : d.cache = e.cache)
    (hfaults : d.history.faults = e.history.faults) : Steady d :=
  ⟨hcache ▸ h.cache, hcache ▸ h.coherent, hfaults.trans h.history⟩

/-- **The user that the engine has loaded, or would load.** -/
def knownUser (engine : Engine) : Except PersistenceFault User :=
  match engine.user with
  | some user => .ok user
  | none => do
      let attributes ← Key.userAttributes.stored engine.store.documents
      let id ← Key.appUserId.stored engine.store.documents
      return ⟨attributes.getD ∅, id⟩

/-- **Two engines differ at most in what is loaded and in what was asked**, and know the
same. -/
structure Alike (e d : Engine) : Prop where
  left : Steady e
  right : Steady d
  cache : AssignmentCache.Alike e.cache d.cache
  user : d.knownUser = e.knownUser
  events : d.history.events = e.history.events
  device : d.device.answers = e.device.answers
  reporter : d.reporter = e.reporter
  seedFromUserId : d.seedFromUserId = e.seedFromUserId

/-- They have also loaded the same of the user.  Between a write of its documents and the
change in memory that follows, an engine that had loaded nothing would know more. -/
structure AlikeWithUser (e d : Engine) : Prop extends Alike e d where
  memory : d.user = e.user

namespace Alike

theorem refl (h : Steady e) : Alike e e := ⟨h, h, .refl _, rfl, rfl, rfl, rfl, rfl⟩

theorem symm (h : Alike e d) : Alike d e :=
  ⟨h.right, h.left, h.cache.symm, h.user.symm, h.events.symm, h.device.symm, h.reporter.symm,
    h.seedFromUserId.symm⟩

theorem trans (hd : Alike e d) (hf : Alike d f) : Alike e f :=
  ⟨hd.left, hf.right, hd.cache.trans hf.cache, hf.user.trans hd.user, hf.events.trans hd.events,
    hf.device.trans hd.device, hf.reporter.trans hd.reporter,
    hf.seedFromUserId.trans hd.seedFromUserId⟩

theorem scene_eq (h : Alike e d) (user parameters : Attributes) (now : Timestamp) :
    d.scene user parameters now = e.scene user parameters now := by
  rw [scene, scene, h.events, h.device]

end Alike

/-- The device goes on to show something else. -/
def facing (answers : Tape (Option Attributes)) (engine : Engine) : Engine :=
  { engine with device := { engine.device with answers } }

theorem Steady.facing (h : Steady e) (answers : Tape (Option Attributes)) :
    Steady (e.facing answers) := h.congr rfl rfl

/-- **Once they face the same device they are alike.** -/
def AlikeFacing (e d : Engine) : Prop := ∀ answers, Alike (e.facing answers) (d.facing answers)

namespace AlikeFacing

theorem refl (h : Steady e) : AlikeFacing e e := fun answers => .refl (h.facing answers)

theorem symm (h : AlikeFacing e d) : AlikeFacing d e := fun answers => (h answers).symm

theorem trans (hd : AlikeFacing e d) (hf : AlikeFacing d f) : AlikeFacing e f :=
  fun answers => (hd answers).trans (hf answers)

theorem left (h : AlikeFacing e d) : Steady e := (h e.device.answers).left

theorem right (h : AlikeFacing e d) : Steady d := (h d.device.answers).right

end AlikeFacing

theorem Alike.alikeFacing (h : Alike e d) : AlikeFacing e d := fun answers =>
  ⟨h.left.facing answers, h.right.facing answers, h.cache, h.user, h.events, rfl, h.reporter,
    h.seedFromUserId⟩

/-! ## The user -/

theorem knownUser_of_loaded {user : User} (h : e.user = some user) : e.knownUser = .ok user := by
  rw [knownUser, h]

/-- What is known of the user depends on its two documents. -/
theorem knownUser_congr (huser : d.user = e.user)
    (hattributes : d.store.documents.find? Key.userAttributes.name =
      e.store.documents.find? Key.userAttributes.name)
    (hid : d.store.documents.find? Key.appUserId.name =
      e.store.documents.find? Key.appUserId.name) : d.knownUser = e.knownUser := by
  rw [knownUser, knownUser, huser, Key.userAttributes.stored_congr hattributes,
    Key.appUserId.stored_congr hid]

theorem outcome_read_of_steady (h : Steady e) (key : Key α) :
    (onStore key.read).outcome e = (key.stored e.store.documents, e) := by
  rw [onStore, outcome_on, store, key.outcome_read_of_calm h.cache.faults]
  rfl

/-- **To load the user is to remember what is known.** -/
theorem Steady.outcome_currentUser (h : Steady e) :
    currentUser.outcome e = (e.knownUser, { e with user := e.knownUser.toOption }) := by
  cases huser : e.user with
  | some user =>
      rw [outcome_currentUser_of_loaded huser, knownUser_of_loaded huser]
      exact congrArg (Except.ok user, ·) (by rw [Except.toOption, ← huser])
  | none =>
      have hattributes := outcome_read_of_steady h Key.userAttributes
      have hid := outcome_read_of_steady h Key.appUserId
      have hstays : { e with user := none } = e := by rw [← huser]
      rw [outcome_currentUser_of_not_loaded huser, knownUser, huser]
      rcases hfound : Key.userAttributes.stored e.store.documents with fault | attributes
      · rw [hfound] at hattributes
        rw [outcome_bind_error hattributes]
        exact congrArg (Except.error fault, ·) hstays.symm
      · rw [hfound] at hattributes
        rw [outcome_bind_ok hattributes]
        rcases hname : Key.appUserId.stored e.store.documents with fault | id
        · rw [hname] at hid
          rw [outcome_bind_error hid]
          exact congrArg (Except.error fault, ·) hstays.symm
        · rw [hname] at hid
          rw [outcome_bind_ok hid]
          rfl

/-- Nothing is loaded where nothing can be. -/
theorem user_of_knownUser_error {fault : PersistenceFault} (h : e.knownUser = .error fault) :
    e.user = none := by
  cases huser : e.user with
  | none => rfl
  | some user =>
      rw [knownUser_of_loaded huser] at h
      cases h

theorem Steady.alike_loaded (h : Steady e) :
    Alike e { e with user := e.knownUser.toOption } := by
  refine ⟨h, h.congr rfl rfl, .refl _, ?_, rfl, rfl, rfl, rfl⟩
  cases hknown : e.knownUser with
  | error fault =>
      have hsame : { e with user := (Except.error fault : Except PersistenceFault User).toOption } =
          e := by
        rw [Except.toOption, ← user_of_knownUser_error hknown]
      rw [hsame, hknown]
  | ok user => exact knownUser_of_loaded rfl

/-! ## Steps of one engine that leave an engine like it -/

/-- The step leaves an engine that is like the one before, once it faces the same device. -/
def KeepsLikeness (step : Attempt Engine ε α) : Prop :=
  step.Within fun e d => Steady e → AlikeFacing e d

theorem KeepsLikeness.bind {step : Attempt Engine ε α} {next : α → Attempt Engine ε β}
    (hstep : KeepsLikeness step) (hnext : ∀ x, KeepsLikeness (next x)) :
    KeepsLikeness (step >>= next) :=
  Within.bind (fun hed hdf he => (hed he).trans (hdf (hed he).right)) hstep hnext

theorem KeepsLikeness.caught {step : Attempt Engine ε α} (h : KeepsLikeness step) :
    KeepsLikeness (step.caught : Attempt Engine δ (Except ε α)) :=
  Within.caught h

theorem keepsLikeness_pure (x : α) : KeepsLikeness (pure x : Attempt Engine ε α) :=
  fun _ he => .refl he

theorem keepsLikeness_currentUser : KeepsLikeness currentUser := by
  intro e he
  rw [he.outcome_currentUser]
  exact he.alike_loaded.alikeFacing

/-- The cache may load what it knows. -/
theorem Steady.alike_cache (h : Steady e) {cache : AssignmentCache}
    (hcache : AssignmentCache.Alike e.cache cache) (hcoherent : cache.Coherent) :
    Alike e { e with cache } := by
  refine ⟨h, ⟨hcache.serves h.cache, hcoherent, h.history⟩, hcache, ?_, rfl, rfl, rfl, rfl⟩
  refine knownUser_congr rfl ?_ ?_
  · show cache.store.documents.find? _ = _
    rw [hcache.store]
    rfl
  · show cache.store.documents.find? _ = _
    rw [hcache.store]
    rfl

theorem keepsLikeness_load : KeepsLikeness (onCache AssignmentCache.load) := by
  intro e he
  exact (he.alike_cache he.cache.alike_load (uniform_load.coherent _ he.coherent)).alikeFacing

theorem keepsLikeness_foresee (rule : Rule) :
    KeepsLikeness (onCache (variantFor rule .preview)) := by
  intro e he
  exact (he.alike_cache (he.cache.alike_foresee _ _)
    ((uniform_foresee _ _).coherent _ he.coherent)).alikeFacing

/-- **Conditions leave questions only.** -/
theorem Looked.alikeFacing {n : Nat} (h : Looked n e d) (he : Steady e) : AlikeFacing e d := by
  obtain ⟨reads, rfl⟩ := h
  exact fun answers =>
    ⟨he.facing answers, he.congr rfl rfl, .refl _, rfl, rfl, rfl, rfl, rfl⟩

theorem keepsLikeness_firstMatch (event : Event) (user : Attributes) (rules : List Rule) :
    KeepsLikeness (firstMatch event user .preview rules [] none) := by
  intro e he
  obtain ⟨d, hlooked, houtcome⟩ :=
    firstMatch_spec he.history event user .preview rules none Scene.right_nil
  rw [houtcome]
  split <;> exact hlooked.alikeFacing he

theorem keepsLikeness_settle (event : Event) (rule : Rule) :
    KeepsLikeness (settle event rule .preview) := by
  refine (keepsLikeness_foresee rule).caught.bind ?_
  rintro (failure | variant)
  · exact keepsLikeness_pure _
  · exact keepsLikeness_pure _

/-- **A preview leaves an engine like the one before.** -/
theorem keepsLikeness_evaluate (event : Event) (rules : RuleSet) :
    KeepsLikeness (evaluate event rules .preview) := by
  refine keepsLikeness_currentUser.caught.bind ?_
  rintro (fault | user)
  · exact keepsLikeness_pure _
  · dsimp only
    rw [if_neg nofun]
    split
    · exact keepsLikeness_pure _
    · refine (keepsLikeness_firstMatch _ _ _).bind ?_
      rintro ((_ | miss) | rule)
      · exact keepsLikeness_pure _
      · exact keepsLikeness_pure _
      · exact keepsLikeness_settle _ _

theorem keepsLikeness_preloadAllowances (user : Attributes) (now : Timestamp) (rules : List Rule) :
    KeepsLikeness (preloadAllowances user now rules []) := by
  intro e he
  obtain ⟨d, hlooked, houtcome⟩ := preloadAllowances_spec user now he.history rules
    Scene.right_nil
  rw [houtcome]
  exact hlooked.alikeFacing he

/-- **So does a look at the paywalls to load ahead.** -/
theorem keepsLikeness_preload (rules : RuleSet) (now : Timestamp) :
    KeepsLikeness (preload rules now) := by
  refine keepsLikeness_currentUser.caught.bind ?_
  rintro (fault | user)
  · exact keepsLikeness_pure _
  · refine keepsLikeness_load.caught.bind ?_
    rintro (fault | assignments)
    · exact keepsLikeness_pure _
    · exact (keepsLikeness_preloadAllowances _ _ _).bind fun _ => keepsLikeness_pure _

/-! ## Steps that engines which are alike take alike -/

section
variable {step : Attempt AssignmentCache ε α}

/-- A step on the assignments leaves the documents of the user. -/
theorem Alike.onCache (h : Alike e d) (hstep : Uniform step) :
    (step.outcome d.cache) = step.outcome e.cache ∧
      Alike { e with cache := (step.outcome e.cache).2 }
        { d with cache := (step.outcome e.cache).2 } := by
  have hsame := hstep.same _ _ h.cache h.left.cache
  have hserves := hstep.serves _ h.left.cache
  have hcoherent := hstep.coherent _ h.left.coherent
  have huser : ∀ {f : Engine}, f.cache.Coherent →
      knownUser { f with cache := (step.outcome f.cache).2 } = f.knownUser := by
    intro f hf
    have hchanges := hstep.changes _ hf
    exact knownUser_congr rfl (hchanges _ (by decide)) (hchanges _ (by decide))
  refine ⟨hsame, ⟨hserves, hcoherent, h.left.history⟩, ⟨hserves, hcoherent, h.right.history⟩,
    .refl _, ?_, h.events, h.device, h.reporter, h.seedFromUserId⟩
  rw [huser h.left.coherent, ← hsame, huser h.right.coherent, h.user]

theorem blindTo_onCache (hstep : Uniform step) : BlindTo Alike (Engine.onCache step) := by
  intro e d h
  obtain ⟨hsame, halike⟩ := h.onCache hstep
  rw [Engine.onCache, outcome_on, outcome_on, hsame]
  exact ⟨rfl, halike⟩

theorem blindTo_onCache_withUser (hstep : Uniform step) :
    BlindTo AlikeWithUser (Engine.onCache step) := by
  intro e d h
  obtain ⟨hsame, halike⟩ := h.toAlike.onCache hstep
  rw [Engine.onCache, outcome_on, outcome_on, hsame]
  exact ⟨rfl, halike, h.memory⟩

end

theorem blindTo_currentUser : BlindTo Alike currentUser := by
  intro e d h
  rw [h.left.outcome_currentUser, h.right.outcome_currentUser]
  exact ⟨h.user, h.left.alike_loaded.symm.trans (h.trans h.right.alike_loaded)⟩

/-- Where the user is loaded first, both have loaded it afterwards. -/
theorem blindTo_afterUser {next : User → Attempt Engine PersistenceFault α}
    (h : ∀ user, BlindTo AlikeWithUser (next user)) : BlindTo Alike (currentUser >>= next) := by
  intro e d halike
  have hloaded := (blindTo_currentUser e d halike).2
  have he := halike.left.outcome_currentUser
  have hd := halike.right.outcome_currentUser
  rw [halike.user] at hd
  rw [he, hd] at hloaded
  rcases hknown : e.knownUser with fault | user
  · rw [hknown] at he hd hloaded
    rw [outcome_bind_error he, outcome_bind_error hd]
    exact ⟨rfl, hloaded⟩
  · rw [hknown] at he hd hloaded
    rw [outcome_bind_ok he, outcome_bind_ok hd]
    obtain ⟨hresult, hrest⟩ := h user _ _ ⟨hloaded, rfl⟩
    exact ⟨hresult, hrest.toAlike⟩

theorem blindTo_currentUser_withUser : BlindTo AlikeWithUser currentUser := by
  intro e d h
  obtain ⟨hresult, halike⟩ := blindTo_currentUser e d h.toAlike
  refine ⟨hresult, halike, ?_⟩
  rw [h.left.outcome_currentUser, h.right.outcome_currentUser, h.user]

theorem blindTo_setUser (user : User) :
    BlindTo AlikeWithUser (setUser user : Attempt Engine ε Unit) := by
  intro e d h
  exact ⟨rfl, ⟨h.left.congr rfl rfl, h.right.congr rfl rfl, h.cache, rfl, h.events, h.device,
    h.reporter, h.seedFromUserId⟩, rfl⟩

/-- The documents of the user. -/
def userKeys : List String := [Key.userAttributes.name, Key.appUserId.name]

theorem Steady.setStore (h : Steady e) {store : Store} (hfaults : store.faults = .none)
    (hchanges : ChangesOnly userKeys e.store store) : Steady (setStore store e) := by
  refine ⟨⟨hfaults, ?_⟩, ?_, h.history⟩
  · rw [← h.cache.seed]
    exact congrArg Option.isSome (hchanges _ (by decide))
  · exact coherent_changesOnly h.coherent rfl hchanges (by decide) (by decide)

theorem AlikeWithUser.setStore (h : AlikeWithUser e d) {store : Store}
    (hfaults : store.faults = .none) (hchanges : ChangesOnly userKeys e.store store) :
    AlikeWithUser (setStore store e) (setStore store d) := by
  have hstore : d.store = e.store := h.cache.store
  exact ⟨⟨h.left.setStore hfaults hchanges, h.right.setStore hfaults (hstore ▸ hchanges),
    h.cache.setStore hchanges (by decide) (by decide), knownUser_congr h.memory rfl rfl,
    h.events, h.device, h.reporter, h.seedFromUserId⟩, h.memory⟩

/-- **The documents of the user are written alike**, as long as what is in memory is alike. -/
theorem blindTo_write {key : Key α} (hkey : key.name ∈ userKeys) (x : α) :
    BlindTo AlikeWithUser (onStore (key.write x)) := by
  intro e d h
  have hfaults : e.store.faults = .none := h.left.cache.faults
  have hstore : d.store = e.store := h.cache.store
  rw [Engine.onStore, outcome_on, outcome_on, hstore, key.outcome_write_of_calm hfaults]
  refine ⟨rfl, h.setStore hfaults ?_⟩
  exact (ChangesOnly.of_insert rfl).mono fun name hname => List.mem_singleton.mp hname ▸ hkey

theorem blindTo_delete {key : Key α} (hkey : key.name ∈ userKeys) :
    BlindTo AlikeWithUser (onStore key.delete) := by
  intro e d h
  have hfaults : e.store.faults = .none := h.left.cache.faults
  have hstore : d.store = e.store := h.cache.store
  rw [Engine.onStore, outcome_on, outcome_on, hstore, key.outcome_delete_of_calm hfaults]
  refine ⟨rfl, h.setStore hfaults ?_⟩
  exact (ChangesOnly.of_erase rfl).mono fun name hname => List.mem_singleton.mp hname ▸ hkey

/-! ## Commands -/

theorem blindTo_setAttributes_withUser (changes : Attributes) :
    BlindTo AlikeWithUser (setAttributes changes) :=
  blindTo_currentUser_withUser.bind fun _ =>
    (blindTo_write (by decide) _).bind fun _ => blindTo_setUser _

theorem blindTo_setAttributes (changes : Attributes) : BlindTo Alike (setAttributes changes) :=
  blindTo_afterUser fun _ => (blindTo_write (by decide) _).bind fun _ => blindTo_setUser _

/-- A reset forgets what was loaded before it does anything else. -/
theorem Alike.forgetUser (h : Alike e d) :
    AlikeWithUser { e with user := none } { d with user := none } := by
  refine ⟨⟨h.left.congr rfl rfl, h.right.congr rfl rfl, h.cache, ?_, h.events, h.device,
    h.reporter, h.seedFromUserId⟩, rfl⟩
  have hdocuments : d.store.documents = e.store.documents := congrArg Store.documents h.cache.store
  exact knownUser_congr rfl (congrArg (Dict.find? · Key.userAttributes.name) hdocuments)
    (congrArg (Dict.find? · Key.appUserId.name) hdocuments)

theorem Alike.reset (h : Alike e d) :
    (reset.outcome d).1 = (reset.outcome e).1 ∧
      AlikeWithUser (reset.outcome e).2 (reset.outcome d).2 := by
  have hrest : BlindTo AlikeWithUser (do
      Engine.onCache AssignmentCache.reset
      Engine.onStore Key.userAttributes.delete
      Engine.onStore Key.appUserId.delete
      setUser .unknown : Attempt Engine PersistenceFault Unit) :=
    (blindTo_onCache_withUser uniform_reset).bind fun _ =>
      (blindTo_delete (by decide)).bind fun _ =>
        (blindTo_delete (by decide)).bind fun _ => blindTo_setUser _
  exact hrest _ _ h.forgetUser

theorem blindTo_recordUser (userId : String) : BlindTo AlikeWithUser (recordUser userId) :=
  blindTo_currentUser_withUser.bind fun _ =>
    (blindTo_setUser _).bind fun _ => blindTo_setAttributes_withUser _

theorem blindTo_enroll (userId : String) : BlindTo AlikeWithUser (enroll userId) := by
  refine (blindTo_write (by decide) _).bind fun _ => ?_
  -- Whether a seed follows from the name is asked of the engine, so both are opened here.
  intro e d h
  rw [outcome_bind, outcome_get, outcome_bind, outcome_get]
  dsimp only
  rw [h.seedFromUserId]
  split
  · exact (blindTo_onCache_withUser (uniform_useSeed _)).bind
      (fun _ => blindTo_recordUser userId) e d h
  · exact blindTo_recordUser userId e d h

theorem blindTo_identify (userId : String) : BlindTo Alike (identify userId) := by
  rw [identify_eq]
  refine blindTo_afterUser fun user => ?_
  by_cases hself : user.id = some userId
  · rw [if_pos hself]
    exact blindTo_pure _
  · rw [if_neg hself]
    split
    · exact BlindTo.bind (fun _ _ h => h.toAlike.reset) fun _ => blindTo_enroll userId
    · exact blindTo_enroll userId

theorem blindTo_restore (server : List ServerAssignment) (rules : RuleSet) :
    BlindTo Alike (restore server rules) :=
  blindTo_onCache (uniform_adopt server rules)

/-! ## Evaluations -/

/-- The same number of conditions leaves engines alike that were alike. -/
theorem Looked.alike {n : Nat} {e' d' : Engine} (he : Looked n e e') (hd : Looked n d d')
    (h : Alike e d) : Alike e' d' := by
  obtain ⟨reads, rfl⟩ := he
  obtain ⟨reads', rfl⟩ := hd
  exact ⟨h.left.congr rfl rfl, h.right.congr rfl rfl, h.cache, h.user, h.events,
    congrArg (Tape.drop n) h.device, h.reporter, h.seedFromUserId⟩

theorem Alike.recordingMatch (h : Alike e d) (intent : Intent) (rule : Rule) (t : Timestamp) :
    Alike (e.recordingMatch intent rule t) (d.recordingMatch intent rule t) := by
  cases intent with
  | preview => exact h
  | commit =>
      refine ⟨h.left.congr rfl rfl, h.right.congr rfl rfl, h.cache, h.user, ?_, h.device,
        h.reporter, h.seedFromUserId⟩
      exact congrArg (History.record · rule.occurrenceEvent t) h.events

theorem blindTo_firstMatch (event : Event) (user : Attributes) (intent : Intent)
    (rules : List Rule) : BlindTo Alike (firstMatch event user intent rules [] none) := by
  intro e d h
  obtain ⟨e', he, houtcome⟩ :=
    firstMatch_spec h.left.history event user intent rules none Scene.right_nil
  obtain ⟨d', hd, houtcome'⟩ :=
    firstMatch_spec h.right.history event user intent rules none Scene.right_nil
  rw [h.scene_eq] at hd houtcome'
  have halike := he.alike hd h
  rw [houtcome, houtcome']
  split
  · exact ⟨rfl, halike⟩
  · exact ⟨rfl, halike⟩
  · exact ⟨rfl, halike.recordingMatch intent _ _⟩

theorem blindTo_report (fire : Fire) : BlindTo Alike (report fire) := by
  intro e d h
  rw [outcome_report, outcome_report, h.reporter]
  split
  · exact ⟨rfl, h⟩
  · exact ⟨rfl, h.left.congr rfl rfl, h.right.congr rfl rfl, h.cache, h.user, h.events, h.device,
      rfl, h.seedFromUserId⟩

theorem blindTo_settle (event : Event) (rule : Rule) (intent : Intent) :
    BlindTo Alike (settle event rule intent) := by
  have hvariant : Uniform (variantFor rule intent) := by
    cases intent with
    | commit => exact uniform_assign _ _
    | preview => exact uniform_foresee _ _
  refine (blindTo_onCache hvariant).caught.bind ?_
  rintro (failure | variant)
  · exact blindTo_pure _
  · dsimp only
    split
    · exact (blindTo_report _).bind fun _ => blindTo_pure _
    · exact blindTo_pure _

theorem blindTo_recordEvent (event : Event) : BlindTo Alike (recordEvent event) := by
  intro e d h
  rw [outcome_recordEvent h.left.history, outcome_recordEvent h.right.history]
  refine ⟨rfl, h.left.congr rfl rfl, h.right.congr rfl rfl, h.cache, h.user, ?_, h.device,
    h.reporter, h.seedFromUserId⟩
  exact congrArg (History.record · event.name event.timestamp) h.events

/-- **An evaluation has the same outcome in engines that are alike.** -/
theorem blindTo_evaluate (event : Event) (rules : RuleSet) (intent : Intent) :
    BlindTo Alike (evaluate event rules intent) := by
  refine blindTo_currentUser.caught.bind ?_
  rintro (fault | user)
  · exact blindTo_pure _
  · refine (blindTo_recordEvent event).beforeIf ?_
    split
    · exact blindTo_pure _
    · refine (blindTo_firstMatch _ _ _ _).bind ?_
      rintro ((_ | miss) | rule)
      · exact blindTo_pure _
      · exact blindTo_pure _
      · exact blindTo_settle _ _ _

theorem blindTo_preload (rules : RuleSet) (now : Timestamp) :
    BlindTo Alike (preload rules now) := by
  refine blindTo_currentUser.caught.bind ?_
  rintro (fault | user)
  · exact blindTo_pure _
  · refine (blindTo_onCache uniform_load).caught.bind ?_
    rintro (fault | assignments)
    · exact blindTo_pure _
    · refine BlindTo.bind ?_ fun _ => blindTo_pure _
      intro e d h
      obtain ⟨e', he, houtcome⟩ :=
        preloadAllowances_spec user.attributes now h.left.history rules.all Scene.right_nil
      obtain ⟨d', hd, houtcome'⟩ :=
        preloadAllowances_spec user.attributes now h.right.history rules.all Scene.right_nil
      rw [h.scene_eq] at hd houtcome'
      rw [houtcome, houtcome']
      exact ⟨rfl, he.alike hd h⟩

/-! ## Jobs -/

theorem blindTo_ofStep {step : Attempt Engine PersistenceFault α} {reply : α → Reply}
    (h : BlindTo Alike step) : BlindTo Alike (Reply.ofStep step reply) := by
  refine h.caught.bind ?_
  rintro (fault | x) <;> exact blindTo_pure _

/-- **No command tells engines that are alike apart.** -/
theorem blindTo_run (command : Command) : BlindTo Alike command.run := by
  cases command with
  | preview event rules =>
      exact (blindTo_evaluate event rules .preview).bind fun _ => blindTo_pure _
  | reset =>
      refine blindTo_ofStep fun _ _ h => ?_
      obtain ⟨hresult, halike⟩ := h.reset
      exact ⟨hresult, halike.toAlike⟩
  | identify userId => exact blindTo_ofStep (blindTo_identify userId)
  | setAttributes changes => exact blindTo_ofStep (blindTo_setAttributes changes)
  | restore server rules => exact blindTo_ofStep (blindTo_restore server rules)
  | preload rules now =>
      refine (blindTo_preload rules now).bind ?_
      rintro (fault | ids) <;> exact blindTo_pure _

end Placement.Engine

namespace Placement
open Attempt Engine

/-- The command only looks: it previews an event, or tells what may be loaded ahead. -/
def Command.looks : Command → Bool
  | .preview _ _ => true
  | .preload _ _ => true
  | _ => false

/-- **A command that only looks leaves an engine like the one before**, once it faces the same
device. -/
theorem Command.keepsLikeness_run {command : Command} (h : command.looks = true) :
    KeepsLikeness command.run := by
  cases command with
  | preview event rules =>
      exact (keepsLikeness_evaluate event rules).bind fun _ => keepsLikeness_pure _
  | preload rules now =>
      refine (keepsLikeness_preload rules now).bind ?_
      rintro (fault | ids) <;> exact keepsLikeness_pure _
  | _ => cases h

/-- No job tells engines that are alike apart. -/
theorem Job.blindTo_run (job : Job) : BlindTo Alike job.run := by
  cases job with
  | shared key event rules =>
      exact (blindTo_evaluate event rules .commit).bind fun _ => blindTo_pure _
  | single caller command => exact Engine.blindTo_run command

end Placement
