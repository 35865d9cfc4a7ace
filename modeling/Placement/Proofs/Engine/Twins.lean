import Placement.Proofs.Engine.Likeness
/-! # Twins

Two engines are **twins** if what they have loaded, the documents of the user and of the
assignments, the events and all that will happen to them are the same.  Then they differ at
most in what they did before: how often they asked, and what they reported.  **No job tells
twins apart, whichever accesses to store and history fail** (`composes_blindTo_twins`,
`blindTo_run_twins`), and twins report alike from then on.

That is more than for engines that are alike (`Engine.Alike`), where one may have loaded what
the other has not: a load that fails would show the difference.
-/
namespace Placement
open Attempt

/-! ## Stores -/

namespace Store
variable {s t : Store}

/-- The documents that the engine keeps. -/
def keys : List String := Engine.userKeys ++ Engine.assignmentKeys

/-- The stores hold the same under these keys, and the same accesses will fail. -/
structure Twins (s t : Store) : Prop where
  documents : ∀ name ∈ keys, t.documents.find? name = s.documents.find? name
  faults : t.faults = s.faults

/-- One access that does alike to both what it does. -/
theorem blindTo_access {α : Type} {what : StoreAccess} {fault : String → PersistenceFault}
    {act : Store → α × Store}
    (hact : ∀ s t, Twins s t → (act t).1 = (act s).1 ∧ Twins (act s).2 (act t).2) :
    BlindTo Twins (access what fault act) := by
  intro s t h
  have hpassed : Twins s.passed t.passed := ⟨h.documents, congrArg Tape.tail h.faults⟩
  rw [outcome_access, outcome_access, h.faults]
  cases s.faults.head what with
  | some reason => exact ⟨rfl, hpassed⟩
  | none =>
      obtain ⟨hresult, hnext⟩ := hact _ _ hpassed
      exact ⟨congrArg Except.ok hresult, hnext⟩

theorem blindTo_read {α : Type} {key : Key α} (hkey : key.name ∈ keys) :
    BlindTo Twins key.read := by
  refine BlindTo.bind (blindTo_access fun s t h => ⟨h.documents key.name hkey, h⟩)
    fun document => ?_
  exact blindTo_ofResult _

theorem blindTo_write {α : Type} (key : Key α) (x : α) : BlindTo Twins (key.write x) := by
  refine blindTo_access fun s t h => ⟨rfl, ?_, h.faults⟩
  intro name hname
  rw [Dict.find?_insert, Dict.find?_insert, h.documents name hname]

theorem blindTo_delete {α : Type} (key : Key α) : BlindTo Twins key.delete := by
  refine blindTo_access fun s t h => ⟨rfl, ?_, h.faults⟩
  intro name hname
  rw [Dict.find?_erase, Dict.find?_erase, h.documents name hname]

end Store

/-! ## Assignments -/

namespace AssignmentCache

/-- Same store, same memory, and the same seeds to come. -/
structure Twins (c d : AssignmentCache) : Prop where
  store : Store.Twins c.store d.store
  seeds : d.seeds = c.seeds
  loaded : d.loaded = c.loaded

theorem blindTo_onStore {α : Type} {step : Attempt Store PersistenceFault α}
    (h : BlindTo Store.Twins step) : BlindTo Twins (onStore step) :=
  h.on (fun _ _ hcd => hcd.store) fun _ _ _ _ hcd hst => ⟨hst, hcd.seeds, hcd.loaded⟩

theorem blindTo_remember {ε : Type} (assignments : Assignments) :
    BlindTo Twins (remember assignments : Attempt AssignmentCache ε PUnit) :=
  blindTo_modify fun _ _ h => ⟨h.store, h.seeds, rfl⟩

theorem blindTo_draw {ε : Type} : BlindTo Twins (draw : Attempt AssignmentCache ε Seed) := by
  intro c d h
  rw [outcome_draw, outcome_draw, h.seeds]
  exact ⟨rfl, h.store, rfl, h.loaded⟩

theorem blindTo_storedSeed : BlindTo Twins storedSeed := by
  refine (blindTo_onStore (Store.blindTo_read (by decide))).bind ?_
  rintro (_ | seed)
  · exact blindTo_draw.bind fun seed =>
      (blindTo_onStore (Store.blindTo_write _ _)).bind fun _ => blindTo_pure _
  · exact blindTo_pure _

theorem blindTo_load : BlindTo Twins load := by
  refine blindTo_get fun c d h => ?_
  rw [h.loaded]
  refine ⟨rfl, ?_⟩
  cases c.loaded with
  | some assignments => exact blindTo_pure _
  | none =>
      exact blindTo_storedSeed.bind fun seed =>
        (blindTo_onStore (Store.blindTo_read (by decide))).bind fun confirmed =>
          (blindTo_remember _).bind fun _ => blindTo_pure _

theorem blindTo_commit (assignments : Assignments) : BlindTo Twins (commit assignments) :=
  (blindTo_onStore (Store.blindTo_write _ _)).bind fun _ => blindTo_remember _

theorem blindTo_confirm (experimentId : ExperimentId) (variant : Variant) :
    BlindTo Twins (confirm experimentId variant) := by
  refine (blindTo_load.mapFault _).bind fun assignments => ?_
  split
  · split
    · exact blindTo_pure _
    · exact blindTo_throw _
  · exact (blindTo_commit _).mapFault _

theorem blindTo_foresee (experimentId : ExperimentId)
    (pick : Seed → Except AssignmentFault Variant) :
    BlindTo Twins (foresee experimentId pick) := by
  refine (blindTo_load.mapFault _).bind fun assignments => ?_
  split
  · exact blindTo_pure _
  · exact blindTo_ofResult _

theorem blindTo_assign (experimentId : ExperimentId)
    (pick : Seed → Except AssignmentFault Variant) : BlindTo Twins (assign experimentId pick) := by
  refine (blindTo_load.mapFault _).bind fun assignments => ?_
  split
  · exact blindTo_pure _
  · exact (blindTo_ofResult _).bind fun variant =>
      (blindTo_confirm _ _).bind fun _ => blindTo_pure _

theorem blindTo_useSeed (seed : Seed) : BlindTo Twins (useSeed seed) := by
  refine blindTo_load.bind fun assignments => ?_
  split
  · exact blindTo_pure _
  · exact (blindTo_onStore (Store.blindTo_write _ _)).bind fun _ => blindTo_remember _

theorem blindTo_adopt (server : List ServerAssignment) (rules : RuleSet) :
    BlindTo Twins (adopt server rules) :=
  blindTo_load.bind fun _ => (blindTo_commit _).bind fun _ => blindTo_pure _

theorem blindTo_reset : BlindTo Twins reset := by
  refine blindTo_draw.bind fun seed => ?_
  have hclear : BlindTo Twins (clear seed) :=
    (blindTo_onStore (Store.blindTo_write _ _)).bind fun _ =>
      blindTo_onStore (Store.blindTo_write _ _)
  refine hclear.caught.bind ?_
  rintro (fault | ⟨⟩)
  · exact (blindTo_modify fun _ _ h => ⟨h.store, h.seeds, rfl⟩).bind fun _ => blindTo_throw _
  · exact blindTo_remember _

end AssignmentCache

/-! ## Histories -/

namespace History

/-- The same events, and the same accesses will fail. -/
structure Twins (h k : History) : Prop where
  events : k.events = h.events
  faults : k.faults = h.faults

theorem blindTo_append (name : String) (t : Timestamp) : BlindTo Twins (append name t) := by
  intro h k hhk
  have hfault : k.fault? .append = h.fault? .append := by
    rw [fault?, fault?, hhk.faults]
  unfold outcome append
  rw [hfault]
  cases h.fault? .append with
  | some fault => exact ⟨rfl, hhk.events, congrArg Tape.tail hhk.faults⟩
  | none =>
      exact ⟨rfl, congrArg (record · name t) hhk.events, congrArg Tape.tail hhk.faults⟩

theorem blindTo_ask {α : Type} (access : HistoryAccess) {answer : History → α}
    (hanswer : ∀ h k, Twins h k → answer k = answer h) : BlindTo Twins (ask access answer) := by
  intro h k hhk
  have hfault : k.fault? access = h.fault? access := by
    rw [fault?, fault?, hhk.faults]
  have hnext : Twins { h with reads := h.reads + 1, faults := h.faults.tail }
      { k with reads := k.reads + 1, faults := k.faults.tail } :=
    ⟨hhk.events, congrArg Tape.tail hhk.faults⟩
  unfold outcome ask
  rw [hfault]
  cases h.fault? access with
  | some fault => exact ⟨rfl, hnext⟩
  | none => exact ⟨congrArg Except.ok (hanswer h k hhk), hnext⟩

theorem Twins.times_eq {h k : History} (hhk : Twins h k) (name : String) :
    k.times name = h.times name := by
  rw [times, times, hhk.events]

end History

namespace Resolver

/-- The same history, the same time, and the same answers so far. -/
structure Twins (r q : Resolver) : Prop where
  history : History.Twins r.history q.history
  now : q.now = r.now
  resolved : q.resolved = r.resolved

theorem blindTo_asked {question : Attempt History HistoryFault Int}
    (h : BlindTo History.Twins question) : BlindTo Twins (asked question) := by
  refine BlindTo.bind ?_ fun answer => blindTo_pure _
  exact (h.on (fun _ _ hrq => hrq.history)
    fun _ _ _ _ hrq hhk => ⟨hhk, hrq.now, hrq.resolved⟩).caught

theorem blindTo_consult (request : PropertyRequest) : BlindTo Twins (consult request) := by
  have hcount : ∀ start stop,
      BlindTo History.Twins (History.count request.eventName start stop) := by
    intro start stop
    refine History.blindTo_ask _ fun h k hhk => ?_
    rw [History.countIn, History.countIn, hhk.times_eq]
  have hlast : BlindTo History.Twins (History.mostRecent request.eventName) := by
    refine History.blindTo_ask _ fun h k hhk => ?_
    rw [History.last?, History.last?, hhk.times_eq]
  refine blindTo_get fun r q h => ?_
  rw [h.now]
  refine ⟨rfl, ?_⟩
  cases request.property.question with
  | since measure => exact blindTo_asked (hlast.bind fun _ => blindTo_pure _)
  | within window =>
      dsimp only
      split
      · exact blindTo_throw _
      · exact blindTo_asked ((hcount _ _).bind fun _ => blindTo_pure _)
  | ever => exact blindTo_asked ((hcount _ _).bind fun _ => blindTo_pure _)

theorem blindTo_answer (request : PropertyRequest) : BlindTo Twins (answer request) := by
  refine blindTo_get fun r q h => ?_
  rw [known?, known?, h.resolved]
  refine ⟨rfl, ?_⟩
  split
  · exact blindTo_pure _
  · refine (blindTo_consult request).bind fun count => ?_
    refine BlindTo.bind ?_ fun _ => blindTo_pure _
    exact blindTo_modify fun _ _ h => ⟨h.history, h.now, congrArg ((request, _) :: ·) h.resolved⟩

theorem composes_blindTo_twins : Composes fun step => BlindTo Twins step where
  pure := blindTo_pure
  bind := BlindTo.bind
  answer := blindTo_answer

end Resolver

/-! ## Engines -/

namespace Engine
variable {ε δ α β : Type} {d e : Engine} {before before' : List Fire}

/-- **Two engines that have the same ahead of them.**  They may have reported other fires
before, and asked more or less often. -/
structure Twins (before before' : List Fire) (e d : Engine) : Prop where
  cache : AssignmentCache.Twins e.cache d.cache
  history : History.Twins e.history d.history
  user : d.user = e.user
  device : d.device.answers = e.device.answers
  receiver : d.reporter.broken = e.reporter.broken
  fires : ∃ since, e.reporter.fires = before ++ since ∧ d.reporter.fires = before' ++ since
  seedFromUserId : d.seedFromUserId = e.seedFromUserId

theorem Twins.setCache (h : Twins before before' e d) {c c' : AssignmentCache}
    (hcache : AssignmentCache.Twins c c') :
    Twins before before' { e with cache := c } { d with cache := c' } :=
  ⟨hcache, h.history, h.user, h.device, h.receiver, h.fires, h.seedFromUserId⟩

theorem Twins.setHistory (h : Twins before before' e d) {k k' : History}
    (hhistory : History.Twins k k') :
    Twins before before' { e with history := k } { d with history := k' } :=
  ⟨h.cache, hhistory, h.user, h.device, h.receiver, h.fires, h.seedFromUserId⟩

theorem Twins.setUser (h : Twins before before' e d) (user : Option User) :
    Twins before before' { e with user } { d with user } :=
  ⟨h.cache, h.history, rfl, h.device, h.receiver, h.fires, h.seedFromUserId⟩

section
variable {step : Attempt AssignmentCache ε α}

theorem blindTo_onCache_twins (h : BlindTo AssignmentCache.Twins step) :
    BlindTo (Twins before before') (onCache step) :=
  h.on (fun _ _ hed => hed.cache) fun _ _ _ _ hed hcache => hed.setCache hcache

end

theorem blindTo_onStore_twins {step : Attempt Store PersistenceFault α}
    (h : BlindTo Store.Twins step) : BlindTo (Twins before before') (onStore step) :=
  h.on (fun _ _ hed => hed.cache.store)
    fun _ _ _ _ hed hst => hed.setCache ⟨hst, hed.cache.seeds, hed.cache.loaded⟩

theorem blindTo_onHistory_twins {step : Attempt History ε α} (h : BlindTo History.Twins step) :
    BlindTo (Twins before before') (onHistory step) :=
  h.on (fun _ _ hed => hed.history) fun _ _ _ _ hed hhistory => hed.setHistory hhistory

theorem blindTo_setUser_twins (user : User) :
    BlindTo (Twins before before') (setUser user : Attempt Engine ε Unit) :=
  blindTo_modify fun _ _ h => h.setUser (some user)

theorem blindTo_currentUser_twins : BlindTo (Twins before before') currentUser := by
  refine blindTo_get fun e d h => ?_
  rw [h.user]
  refine ⟨rfl, ?_⟩
  cases e.user with
  | some user => exact blindTo_pure _
  | none =>
      exact (blindTo_onStore_twins (Store.blindTo_read (by decide))).bind fun attributes =>
        (blindTo_onStore_twins (Store.blindTo_read (by decide))).bind fun id =>
          (blindTo_setUser_twins _).bind fun _ => blindTo_pure _

theorem blindTo_askDevice_twins : BlindTo (Twins before before') askDevice := by
  intro e d h
  rw [outcome_askDevice_eq, outcome_askDevice_eq]
  refine ⟨?_, h.cache, h.history, h.user, congrArg Tape.tail h.device, h.receiver, h.fires,
    h.seedFromUserId⟩
  rw [h.device]

/-- **Twins report the same fires** from now on. -/
theorem blindTo_report_twins (fire : Fire) : BlindTo (Twins before before') (report fire) := by
  intro e d h
  rw [outcome_report, outcome_report, h.receiver]
  by_cases hbroken : e.reporter.broken = true
  · rw [if_pos hbroken, if_pos hbroken]
    exact ⟨rfl, h⟩
  · rw [if_neg hbroken, if_neg hbroken]
    obtain ⟨since, hfires, hfires'⟩ := h.fires
    refine ⟨rfl, h.cache, h.history, h.user, h.device, h.receiver,
      ⟨since ++ [fire], ?_, ?_⟩, h.seedFromUserId⟩
    · rw [hfires, List.append_assoc]
    · rw [hfires', List.append_assoc]

/-! ## Evaluations -/

theorem blindTo_resolving_twins {step : Attempt Resolver Crash α}
    (h : BlindTo Resolver.Twins step) (now : Timestamp) (resolved : Resolved) :
    BlindTo (Twins before before') (resolving now resolved step) := by
  intro e d hed
  obtain ⟨hresult, hnext⟩ := h ⟨e.history, now, resolved⟩ ⟨d.history, now, resolved⟩
    ⟨hed.history, rfl, rfl⟩
  rw [outcome_resolving, outcome_resolving]
  dsimp only
  rw [hresult, hnext.resolved]
  exact ⟨rfl, hed.setHistory hnext.history⟩

theorem blindTo_judge_twins (rule : Rule) (holds : Bool) (intent : Intent) (t : Timestamp) :
    BlindTo (Twins before before')
      (onHistory (rule.judge holds intent t) : Attempt Engine Crash (Except NoMatch Rule)) := by
  have hrecord : BlindTo History.Twins (rule.recordMatch t : Attempt History Crash Unit) :=
    (History.blindTo_append _ _).caught.bind fun _ => blindTo_pure _
  refine blindTo_onHistory_twins ?_
  cases holds with
  | false => exact blindTo_pure _
  | true => exact hrecord.beforeIf (blindTo_pure _)

/-- **Evaluations and preloading do not tell twins apart.** -/
theorem composes_blindTo_twins (before before' : List Fire) :
    Composes fun step => BlindTo (Twins before before') step where
  pure := blindTo_pure
  bind := BlindTo.bind
  caught := BlindTo.caught
  currentUser := blindTo_currentUser_twins
  askDevice := blindTo_askDevice_twins
  condition _ _ _ _ _ _ :=
    blindTo_resolving_twins (Resolver.composes_blindTo_twins.conditionIn _ _ _ _) _ _
  append _ _ := blindTo_onHistory_twins (History.blindTo_append _ _)
  judge := blindTo_judge_twins
  load := blindTo_onCache_twins AssignmentCache.blindTo_load
  variantFor rule intent := by
    cases intent with
    | commit => exact blindTo_onCache_twins (AssignmentCache.blindTo_assign _ _)
    | preview => exact blindTo_onCache_twins (AssignmentCache.blindTo_foresee _ _)
  report := blindTo_report_twins

/-! ## Who the user is -/

theorem blindTo_setAttributes_twins (changes : Attributes) :
    BlindTo (Twins before before') (setAttributes changes) :=
  blindTo_currentUser_twins.bind fun _ =>
    (blindTo_onStore_twins (Store.blindTo_write _ _)).bind fun _ => blindTo_setUser_twins _

theorem blindTo_reset_twins : BlindTo (Twins before before') reset := by
  have hforget : BlindTo (Twins before before')
      (modify fun engine => { engine with user := none } : Attempt Engine PersistenceFault Unit) :=
    blindTo_modify fun _ _ h => h.setUser none
  exact hforget.bind fun _ => (blindTo_onCache_twins AssignmentCache.blindTo_reset).bind fun _ =>
    (blindTo_onStore_twins (Store.blindTo_delete _)).bind fun _ =>
      (blindTo_onStore_twins (Store.blindTo_delete _)).bind fun _ => blindTo_setUser_twins _

theorem blindTo_enroll_twins (userId : String) :
    BlindTo (Twins before before') (enroll userId) := by
  have hrecord : BlindTo (Twins before before') (recordUser userId) :=
    blindTo_currentUser_twins.bind fun _ =>
      (blindTo_setUser_twins _).bind fun _ => blindTo_setAttributes_twins _
  refine (blindTo_onStore_twins (Store.blindTo_write _ _)).bind fun _ => ?_
  refine blindTo_get fun e d h => ?_
  rw [h.seedFromUserId]
  exact ⟨rfl, (blindTo_onCache_twins (AssignmentCache.blindTo_useSeed _)).beforeIf hrecord⟩

theorem blindTo_identify_twins (userId : String) :
    BlindTo (Twins before before') (identify userId) := by
  rw [identify_eq]
  refine blindTo_currentUser_twins.bind fun user => ?_
  by_cases hself : user.id = some userId
  · rw [if_pos hself]
    exact blindTo_pure _
  · rw [if_neg hself]
    exact blindTo_reset_twins.beforeIf (blindTo_enroll_twins userId)

/-! ## Jobs -/

theorem blindTo_run_twins (command : Command) : BlindTo (Twins before before') command.run := by
  have hcomposes := composes_blindTo_twins before before'
  cases command with
  | preview event rules => exact hcomposes.runPreview event rules
  | preload rules now => exact hcomposes.runPreload rules now
  | reset => exact hcomposes.ofStep blindTo_reset_twins
  | identify userId => exact hcomposes.ofStep (blindTo_identify_twins userId)
  | setAttributes changes => exact hcomposes.ofStep (blindTo_setAttributes_twins changes)
  | restore server rules =>
      exact hcomposes.ofStep (blindTo_onCache_twins (AssignmentCache.blindTo_adopt server rules))

theorem Twins.reopen (h : Twins before before' e d) : Twins before before' e.reopen d.reopen :=
  ⟨⟨h.cache.store, h.cache.seeds, rfl⟩, h.history, rfl, h.device, h.receiver, h.fires,
    h.seedFromUserId⟩

end Engine
end Placement
