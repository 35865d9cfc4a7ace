import Placement.Proofs.Assignments.Reopening
/-! # Caches that are alike

A cache may have loaded what another one has not.  They are **alike** if that is all in
which they differ, and the other one would load the same (`Alike`).

Over a store that does not fail and holds a seed (`Serves`), to load is to remember what is
known.  So **nothing tells two caches that are alike apart**: each operation gives the same
answer in both (`Alike.perform`), and looking leaves a cache that is like the one before.
-/
namespace Placement.AssignmentCache
open Attempt Store CacheRequest
variable {c d : AssignmentCache}

/-- Accesses to the store do not fail, and it holds a seed. -/
structure Serves (cache : AssignmentCache) : Prop where
  faults : cache.store.faults = .none
  seed : (cache.store.documents.find? Key.seed.name).isSome = true

/-- **What the cache has loaded, or would load.** -/
def known (cache : AssignmentCache) : Except PersistenceFault Assignments :=
  match cache.loaded with
  | some assignments => .ok assignments
  | none => do
      let seed ← Key.seed.stored cache.store.documents
      let confirmed ← confirmedIn cache.store.documents
      return ⟨seed.getD cache.seeds.head, confirmed⟩

/-- The cache once it has tried to load. -/
def primed (cache : AssignmentCache) : AssignmentCache :=
  { cache with loaded := cache.known.toOption }

theorem known_of_loaded {assignments : Assignments} (h : c.loaded = some assignments) :
    c.known = .ok assignments := by
  rw [known, h]

theorem primed_of_loaded {assignments : Assignments} (h : c.loaded = some assignments) :
    c.primed = c := by
  rw [primed, known_of_loaded h, Except.toOption, ← h]

/-- Nothing is loaded where nothing can be. -/
theorem loaded_of_known_error {fault : PersistenceFault} (h : c.known = .error fault) :
    c.loaded = none := by
  cases hloaded : c.loaded with
  | none => rfl
  | some assignments =>
      rw [known_of_loaded hloaded] at h
      cases h

theorem Serves.outcome_read {α : Type} (h : c.Serves) (key : Key α) :
    (onStore key.read).outcome c = (key.stored c.store.documents, c) := by
  rw [onStore, outcome_on, key.outcome_read_of_calm h.faults]

/-- The seed that is stored is found, or cannot be decoded. -/
theorem Serves.stored_seed (h : c.Serves) : Key.seed.stored c.store.documents ≠ .ok none := by
  obtain ⟨document, hdocument⟩ := Option.isSome_iff_exists.mp h.seed
  rw [Key.stored, hdocument, Key.ofDocument]
  intro h
  split at h <;> cases h

/-- **To load is to remember what is known.** -/
theorem Serves.outcome_load (h : c.Serves) : load.outcome c = (c.known, c.primed) := by
  cases hloaded : c.loaded with
  | some assignments =>
      rw [load_of_loaded hloaded, known_of_loaded hloaded, primed_of_loaded hloaded]
  | none =>
      have hread := h.outcome_read Key.seed
      have hconfirmed := h.outcome_read Key.confirmedAssignments
      have hstays : c.reopen = c := by rw [reopen, ← hloaded]
      rw [load_of_not_loaded hloaded, primed, known, hloaded, confirmedIn]
      rcases hseed : Key.seed.stored c.store.documents with fault | (_ | seed)
      · rw [hseed] at hread
        have hstored : storedSeed.outcome c = (.error fault, c) := by
          rw [storedSeed, outcome_bind_error hread]
        rw [outcome_bind_error hstored]
        exact congrArg (Except.error fault, ·) hstays.symm
      · exact absurd hseed h.stored_seed
      · rw [hseed] at hread
        have hstored : storedSeed.outcome c = (.ok seed, c) := by
          rw [storedSeed, outcome_bind_ok hread]
          rfl
        rw [outcome_bind_ok hstored]
        rcases hfound : Key.confirmedAssignments.stored c.store.documents with fault | found
        · rw [hfound] at hconfirmed
          rw [outcome_bind_error hconfirmed]
          exact congrArg (Except.error fault, ·) hstays.symm
        · rw [hfound] at hconfirmed
          rw [outcome_bind_ok hconfirmed]
          rfl

/-! ## Likeness -/

/-- **Two caches differ at most in what is loaded**, and know the same. -/
structure Alike (c d : AssignmentCache) : Prop where
  store : d.store = c.store
  seeds : d.seeds = c.seeds
  known : d.known = c.known

theorem Alike.refl (c : AssignmentCache) : Alike c c := ⟨rfl, rfl, rfl⟩

theorem Alike.symm (h : Alike c d) : Alike d c := ⟨h.store.symm, h.seeds.symm, h.known.symm⟩

theorem Alike.trans {e : AssignmentCache} (hd : Alike c d) (he : Alike d e) : Alike c e :=
  ⟨he.store.trans hd.store, he.seeds.trans hd.seeds, he.known.trans hd.known⟩

theorem Alike.primed_eq (h : Alike c d) : d.primed = c.primed := by
  rw [primed, primed, h.known]
  rcases c with ⟨store, seeds, loaded⟩
  rcases d with ⟨_, _, loaded'⟩
  cases h.store
  cases h.seeds
  rfl

theorem Alike.reopen_eq (h : Alike c d) : d.reopen = c.reopen := by
  rcases c with ⟨store, seeds, loaded⟩
  rcases d with ⟨_, _, loaded'⟩
  cases h.store
  cases h.seeds
  rfl

theorem Alike.serves (h : Alike c d) (hc : c.Serves) : d.Serves := by
  constructor
  · rw [h.store]
    exact hc.faults
  · rw [h.store]
    exact hc.seed

/-- Other documents than the seed and the confirmed assignments do not matter. -/
theorem known_changesOnly {names : List String} {store : Store}
    (h : ChangesOnly names c.store store) (hseed : Key.seed.name ∉ names)
    (hconfirmed : Key.confirmedAssignments.name ∉ names) :
    known { c with store } = c.known := by
  rw [known, known, Key.seed.stored_changesOnly h hseed,
    confirmedIn_congr (Key.confirmedAssignments.stored_changesOnly h hconfirmed)]

theorem Alike.setStore (h : Alike c d) {names : List String} {store : Store}
    (hchanges : ChangesOnly names c.store store) (hseed : Key.seed.name ∉ names)
    (hconfirmed : Key.confirmedAssignments.name ∉ names) :
    Alike { c with store } { d with store } := by
  refine ⟨rfl, h.seeds, ?_⟩
  rw [known_changesOnly hchanges hseed hconfirmed,
    known_changesOnly (h.store ▸ hchanges) hseed hconfirmed, h.known]

/-- **What is known already makes no difference to a request.** -/
theorem Alike.perform (h : Alike c d) (hc : c.Serves) (request : CacheRequest)
    (hrequest : request ≠ .reopen) : request.perform d = request.perform c := by
  by_cases hloads : request.loads = true
  · refine perform_congr hloads ?_
    rw [(h.serves hc).outcome_load, hc.outcome_load, h.known, h.primed_eq]
  · cases request with
    | reset =>
        rw [CacheRequest.perform, CacheRequest.perform, ← outcome_reset_reopen d, h.reopen_eq,
          outcome_reset_reopen]
    | reopen => exact absurd rfl hrequest
    | _ => exact absurd rfl hloads

theorem alike_primed (c : AssignmentCache) : Alike c c.primed := by
  refine ⟨rfl, rfl, ?_⟩
  cases hknown : c.known with
  | error fault =>
      have hsame : c.primed = c := by
        rw [primed, hknown, Except.toOption, ← loaded_of_known_error hknown]
      rw [hsame, hknown]
  | ok assignments =>
      refine known_of_loaded ?_
      rw [primed, hknown]
      rfl

/-- **To look leaves a cache that is like the one before.** -/
theorem Serves.alike_load (h : c.Serves) : Alike c (load.outcome c).2 := by
  rw [h.outcome_load]
  exact alike_primed c

theorem Serves.alike_foresee (h : c.Serves) (experimentId : ExperimentId)
    (pick : Seed → Except AssignmentFault Variant) :
    Alike c ((foresee experimentId pick).outcome c).2 := by
  have hload := h.outcome_load
  rw [foresee]
  cases hknown : c.known with
  | error fault =>
      rw [hknown] at hload
      rw [outcome_bind_error (outcome_mapFault_error hload)]
      exact alike_primed c
  | ok assignments =>
      rw [hknown] at hload
      rw [outcome_bind_ok (outcome_mapFault_ok hload)]
      cases assignments.confirmed.find? experimentId <;> exact alike_primed c

/-! ## A store that does not fail goes on not to -/

/-- The step leaves a store that does not fail, with a seed. -/
def KeepsServing {ε α : Type} (step : Attempt AssignmentCache ε α) : Prop :=
  step.Within fun c d => c.Serves → d.Serves

section
variable {ε α β : Type}

theorem KeepsServing.bind {step : Attempt AssignmentCache ε α}
    {next : α → Attempt AssignmentCache ε β} (hstep : KeepsServing step)
    (hnext : ∀ x, KeepsServing (next x)) : KeepsServing (step >>= next) :=
  Within.bind (fun hcd hde hc => hde (hcd hc)) hstep hnext

theorem keepsServing_pure (x : α) : KeepsServing (pure x : Attempt AssignmentCache ε α) :=
  fun _ hc => hc

theorem keepsServing_of_store {step : Attempt AssignmentCache ε α}
    (h : ∀ c, (step.outcome c).2.store = c.store) : KeepsServing step := by
  intro c hc
  constructor
  · rw [h c]
    exact hc.faults
  · rw [h c]
    exact hc.seed

theorem keepsServing_ofResult (result : Except ε α) :
    KeepsServing (ofResult result : Attempt AssignmentCache ε α) :=
  keepsServing_of_store fun _ => rfl

theorem keepsServing_remember (assignments : Assignments) :
    KeepsServing (remember assignments : Attempt AssignmentCache ε PUnit) :=
  keepsServing_of_store fun _ => rfl

theorem KeepsServing.mapFault {δ : Type} {step : Attempt AssignmentCache ε α}
    (h : KeepsServing step) (f : ε → δ) : KeepsServing (step.mapFault f) := by
  intro c hc
  rw [outcome_mapFault]
  exact h c hc

end

theorem keepsServing_write {α : Type} (key : Key α) (x : α) :
    KeepsServing (onStore (key.write x)) := by
  intro c hc
  rw [onStore, outcome_on, key.outcome_write_of_calm hc.faults]
  refine ⟨hc.faults, ?_⟩
  dsimp only
  rw [Dict.find?_insert]
  split
  · rfl
  · exact hc.seed

/-! ## Operations -/

theorem keepsServing_load : KeepsServing load := by
  intro c hc
  rw [hc.outcome_load]
  exact ⟨hc.faults, hc.seed⟩

theorem keepsServing_commit (assignments : Assignments) : KeepsServing (commit assignments) :=
  (keepsServing_write _ _).bind fun _ => keepsServing_remember _

theorem keepsServing_confirm (experimentId : ExperimentId) (variant : Variant) :
    KeepsServing (confirm experimentId variant) := by
  refine (keepsServing_load.mapFault _).bind fun assignments => ?_
  split
  · split
    · exact keepsServing_pure _
    · exact keepsServing_of_store fun _ => rfl
  · exact (keepsServing_commit _).mapFault _

theorem keepsServing_assign (experimentId : ExperimentId)
    (pick : Seed → Except AssignmentFault Variant) :
    KeepsServing (assign experimentId pick) := by
  refine (keepsServing_load.mapFault _).bind fun assignments => ?_
  split
  · exact keepsServing_pure _
  · exact (keepsServing_ofResult _).bind fun variant =>
      (keepsServing_confirm _ _).bind fun _ => keepsServing_pure _

theorem keepsServing_useSeed (seed : Seed) : KeepsServing (useSeed seed) := by
  refine keepsServing_load.bind fun assignments => ?_
  split
  · exact keepsServing_pure _
  · exact (keepsServing_write _ _).bind fun _ => keepsServing_remember _

theorem keepsServing_adopt (server : List ServerAssignment) (rules : RuleSet) :
    KeepsServing (adopt server rules) :=
  keepsServing_load.bind fun _ => (keepsServing_commit _).bind fun _ => keepsServing_pure _

theorem keepsServing_reset : KeepsServing reset := by
  intro c hc
  have hclear : KeepsServing (clear c.seeds.head) :=
    (keepsServing_write _ _).bind fun _ => keepsServing_write _ _
  have hserves := hclear { c with seeds := c.seeds.tail } ⟨hc.faults, hc.seed⟩
  rw [outcome_reset]
  rcases h : (clear c.seeds.head).outcome { c with seeds := c.seeds.tail } with ⟨fault | ⟨⟩, d⟩
  · rw [h] at hserves
    exact ⟨hserves.faults, hserves.seed⟩
  · rw [h] at hserves
    exact ⟨hserves.faults, hserves.seed⟩

/-! ## Steps that do not look at what is loaded -/

/-- **The step does the same in caches that are alike**, keeps memory and store in agreement,
and writes no other document than the seed and the confirmed assignments. -/
structure Uniform {ε α : Type} (step : Attempt AssignmentCache ε α) : Prop where
  same : ∀ c d, Alike c d → c.Serves → step.outcome d = step.outcome c
  serves : KeepsServing step
  coherent : ∀ c, Coherent c → Coherent (step.outcome c).2
  changes : ∀ c, Coherent c →
    ChangesOnly [Key.seed.name, Key.confirmedAssignments.name] c.store (step.outcome c).2.store

/-- Alike replies are alike results. -/
theorem outcome_eq_of_reply {ε α : Type} {reply : Except ε α → CacheReply}
    (hreply : ∀ {a b}, reply a = reply b → a = b) {x y : Except ε α × AssignmentCache}
    (h : x.map reply id = y.map reply id) : x = y := by
  obtain ⟨hresult, hstate⟩ := Prod.mk.inj h
  exact Prod.ext (hreply hresult) hstate

theorem uniform_load : Uniform load where
  same _ _ h hc := by rw [(h.serves hc).outcome_load, hc.outcome_load, h.known, h.primed_eq]
  serves := keepsServing_load
  coherent _ hc := (load_spec hc (Prod.eta _).symm).1
  changes _ hc := (load_spec hc (Prod.eta _).symm).2.1.mono (by simp)

theorem uniform_assign (experimentId : ExperimentId)
    (pick : Seed → Except AssignmentFault Variant) : Uniform (assign experimentId pick) where
  same _ _ h hc := outcome_eq_of_reply CacheReply.variant.inj
    (h.perform hc (.assign experimentId pick) nofun)
  serves := keepsServing_assign experimentId pick
  coherent _ hc := (assign_spec hc (Prod.eta _).symm).1
  changes _ hc := (assign_spec hc (Prod.eta _).symm).2.1

theorem uniform_foresee (experimentId : ExperimentId)
    (pick : Seed → Except AssignmentFault Variant) : Uniform (foresee experimentId pick) where
  same _ _ h hc := outcome_eq_of_reply CacheReply.variant.inj
    (h.perform hc (.foresee experimentId pick) nofun)
  serves _ hc := (hc.alike_foresee experimentId pick).serves hc
  coherent _ hc := (foresee_spec hc (Prod.eta _).symm).1
  changes _ hc := (foresee_spec hc (Prod.eta _).symm).2.mono (by simp)

theorem uniform_useSeed (seed : Seed) : Uniform (useSeed seed) where
  same _ _ h hc := outcome_eq_of_reply CacheReply.changed.inj
    (h.perform hc (.useSeed seed) nofun)
  serves := keepsServing_useSeed seed
  coherent _ hc := (useSeed_spec hc (Prod.eta _).symm).1
  changes _ hc := (useSeed_spec hc (Prod.eta _).symm).2.1.mono (by simp)

theorem uniform_adopt (server : List ServerAssignment) (rules : RuleSet) :
    Uniform (adopt server rules) where
  same _ _ h hc := outcome_eq_of_reply CacheReply.adopted.inj
    (h.perform hc (.adopt server rules) nofun)
  serves := keepsServing_adopt server rules
  coherent _ hc := (adopt_spec hc (Prod.eta _).symm).1
  changes _ hc := (adopt_spec hc (Prod.eta _).symm).2.1

theorem uniform_reset : Uniform reset where
  same _ _ h hc := outcome_eq_of_reply CacheReply.changed.inj
    (h.perform hc .reset nofun)
  serves := keepsServing_reset
  coherent _ _ := (reset_spec (Prod.eta _).symm).1
  changes _ _ := (reset_spec (Prod.eta _).symm).2.1

end Placement.AssignmentCache
