import Placement.Proofs.Assignments.Coherence
/-! # A cache in use

What a cache of assignments is asked for, in any order: a `CacheRequest` is one operation
with its arguments, or the opening of a new cache over the same store.  Which accesses to
the store fail is fixed by the tape of the store that the cache starts with, so a statement
about every start is a statement about every pattern of failures.

**Memory agrees with the store after every list of requests** (`Coherent.after`).  That a
confirmed variant stays until it is released is shown here for one request
(`Confirmed.perform`) and from it for lists (`Confirmed.after`).
-/
namespace Placement

/-- Something that a cache can be asked for. -/
inductive CacheRequest
  | seed
  | useSeed (seed : Seed)
  | assign (experimentId : ExperimentId) (pick : Seed → Except AssignmentFault Variant)
  | foresee (experimentId : ExperimentId) (pick : Seed → Except AssignmentFault Variant)
  | confirm (experimentId : ExperimentId) (variant : Variant)
  | adopt (server : List ServerAssignment) (rules : RuleSet)
  | reset
  /-- A new cache over the same store. -/
  | reopen

/-- What comes back. -/
inductive CacheReply
  | seed (result : Except PersistenceFault Seed)
  | variant (result : Except Failure Variant)
  | confirmed (result : Except Failure Unit)
  | adopted (result : Except PersistenceFault Nat)
  /-- Of a reset, or of the use of another seed. -/
  | changed (result : Except PersistenceFault Unit)
  | reopened

/-- A request and what came back. -/
structure CacheEvent where
  request : CacheRequest
  reply : CacheReply

namespace CacheRequest
open AssignmentCache Attempt Store

/-- The reply and the state of the cache afterwards. -/
def perform : CacheRequest → AssignmentCache → CacheReply × AssignmentCache
  | .seed, c => (AssignmentCache.seed.outcome c).map .seed id
  | .useSeed other, c => ((AssignmentCache.useSeed other).outcome c).map .changed id
  | .assign experimentId pick, c =>
      ((AssignmentCache.assign experimentId pick).outcome c).map .variant id
  | .foresee experimentId pick, c =>
      ((AssignmentCache.foresee experimentId pick).outcome c).map .variant id
  | .confirm experimentId variant, c =>
      ((AssignmentCache.confirm experimentId variant).outcome c).map .confirmed id
  | .adopt server rules, c => ((AssignmentCache.adopt server rules).outcome c).map .adopted id
  | .reset, c => (AssignmentCache.reset.outcome c).map .changed id
  | .reopen, c => (.reopened, c.reopen)

/-- The cache after some requests. -/
def after : List CacheRequest → AssignmentCache → AssignmentCache
  | [], c => c
  | request :: rest, c => after rest (request.perform c).2

/-- The requests with their replies. -/
def events : List CacheRequest → AssignmentCache → List CacheEvent
  | [], _ => []
  | request :: rest, c => ⟨request, (request.perform c).1⟩ :: events rest (request.perform c).2

end CacheRequest

namespace AssignmentCache
open Attempt Store CacheRequest
variable {c : AssignmentCache}

/-! ## Agreement of memory and store -/

theorem Coherent.perform (hc : Coherent c) (request : CacheRequest) :
    Coherent (request.perform c).2 := by
  cases request with
  | seed => exact (seed_spec hc (Prod.eta _).symm).1
  | useSeed other => exact (useSeed_spec hc (Prod.eta _).symm).1
  | assign experimentId pick => exact (assign_spec hc (Prod.eta _).symm).1
  | foresee experimentId pick => exact (foresee_spec hc (Prod.eta _).symm).1
  | confirm experimentId variant => exact (confirm_spec hc (Prod.eta _).symm).1
  | adopt server rules => exact (adopt_spec hc (Prod.eta _).symm).1
  | reset => exact (reset_spec (Prod.eta _).symm).1
  | reopen => exact coherent_of_loaded_eq_none rfl

/-- **Memory agrees with the store after every list of requests.** -/
theorem Coherent.after (hc : Coherent c) (requests : List CacheRequest) :
    Coherent (CacheRequest.after requests c) := by
  induction requests generalizing c with
  | nil => exact hc
  | cons request rest ih => exact ih (hc.perform request)

theorem coherent_ofStore (store : Store) (seeds : Tape Seed) : Coherent (ofStore store seeds) :=
  coherent_of_loaded_eq_none rfl

/-! ## Confirmed variants -/

/-- **The store holds a confirmed variant** for an experiment. -/
def Confirmed (experimentId : ExperimentId) (variant : Variant) (cache : AssignmentCache) : Prop :=
  ∃ confirmed, confirmedIn cache.store.documents = .ok confirmed ∧
    confirmed.find? experimentId = some variant

/-- The event settles the variant of an experiment. -/
inductive Settles (experimentId : ExperimentId) (variant : Variant) : CacheEvent → Prop
  | assigned (pick : Seed → Except AssignmentFault Variant) :
      Settles experimentId variant ⟨.assign experimentId pick, .variant (.ok variant)⟩
  | confirmed : Settles experimentId variant ⟨.confirm experimentId variant, .confirmed (.ok ())⟩

/-- The event may take its variant from an experiment: a reset that succeeded, or
assignments of the server that were adopted and name a known variant of it. -/
inductive Releases (experimentId : ExperimentId) : CacheEvent → Prop
  | reset : Releases experimentId ⟨.reset, .changed (.ok ())⟩
  | adopted {server : List ServerAssignment} {rules : RuleSet} (count : Nat)
      (h : experimentId ∈ (knownVariants rules server).map Prod.fst) :
      Releases experimentId ⟨.adopt server rules, .adopted (.ok count)⟩

variable {experimentId : ExperimentId} {variant : Variant}

theorem Confirmed.congr {d : AssignmentCache} (hx : Confirmed experimentId variant c)
    (h : confirmedIn d.store.documents = confirmedIn c.store.documents) :
    Confirmed experimentId variant d := by
  obtain ⟨confirmed, hconfirmed, hfind⟩ := hx
  exact ⟨confirmed, h.trans hconfirmed, hfind⟩

/-- A variant stays when one is confirmed that agrees with what is there. -/
theorem Confirmed.puts {d : AssignmentCache} {other : ExperimentId} {found : Variant}
    (hx : Confirmed experimentId variant c) (h : Puts other found c d) :
    Confirmed experimentId variant d := by
  obtain ⟨confirmed, hconfirmed, hagrees, hafter⟩ := h
  obtain ⟨before, hbefore, hfind⟩ := hx
  have hsame : before = confirmed := Except.ok.inj (hbefore.symm.trans hconfirmed)
  subst hsame
  refine ⟨_, hafter, ?_⟩
  rw [Dict.find?_insert]
  split
  · rename_i hother
    subst hother
    rw [hagrees variant hfind]
  · exact hfind

theorem confirmed_of_puts {d : AssignmentCache} (h : Puts experimentId variant c d) :
    Confirmed experimentId variant d := by
  obtain ⟨confirmed, -, -, hafter⟩ := h
  exact ⟨_, hafter, Dict.find?_insert_self _ _ _⟩

/-- A reset that fails releases nothing. -/
theorem Confirmed.reset_error {fault : PersistenceFault} (hx : Confirmed experimentId variant c)
    (h : (reset.outcome c).1 = .error fault) :
    Confirmed experimentId variant (reset.outcome c).2 := by
  obtain ⟨-, -, hends⟩ := reset_spec (Prod.eta (reset.outcome c)).symm
  rw [h] at hends
  exact hx.congr (confirmedIn_congr hends.2)

/-- An adoption that fails releases nothing. -/
theorem Confirmed.adopt_error {server : List ServerAssignment} {rules : RuleSet}
    {fault : PersistenceFault} (hc : Coherent c) (hx : Confirmed experimentId variant c)
    (h : ((adopt server rules).outcome c).1 = .error fault) :
    Confirmed experimentId variant ((adopt server rules).outcome c).2 := by
  obtain ⟨-, -, hends⟩ := adopt_spec hc (Prod.eta ((adopt server rules).outcome c)).symm
  rw [h] at hends
  exact hx.congr hends

/-- **A confirmed variant outlives every request that does not release it.** -/
theorem Confirmed.perform (hc : Coherent c) (hx : Confirmed experimentId variant c)
    (request : CacheRequest) (hkept : ¬ Releases experimentId ⟨request, (request.perform c).1⟩) :
    Confirmed experimentId variant (request.perform c).2 := by
  cases request with
  | seed =>
      exact hx.congr (confirmedIn_changesOnly_seed (seed_spec hc (Prod.eta _).symm).2)
  | useSeed other =>
      exact hx.congr (confirmedIn_changesOnly_seed (useSeed_spec hc (Prod.eta _).symm).2.1)
  | foresee other pick =>
      exact hx.congr (confirmedIn_changesOnly_seed (foresee_spec hc (Prod.eta _).symm).2)
  -- Another variant of the same experiment is never put over a confirmed one.
  | assign other pick =>
      exact (assign_spec hc (Prod.eta _).symm).2.2.elim
        (fun _ _ hputs => hx.puts hputs) (fun _ _ hsame => hx.congr hsame)
  | confirm other found =>
      exact (confirm_spec hc (Prod.eta _).symm).2.2.elim
        (fun _ _ hputs => hx.puts hputs) (fun _ _ hsame => hx.congr hsame)
  | adopt server rules =>
      cases hresult : ((adopt server rules).outcome c).1 with
      | error fault => exact hx.adopt_error hc hresult
      | ok count =>
          obtain ⟨-, -, hends⟩ := adopt_spec hc (Prod.eta ((adopt server rules).outcome c)).symm
          rw [hresult] at hends
          obtain ⟨confirmed, hconfirmed, hafter⟩ := hends
          obtain ⟨before, hbefore, hfind⟩ := hx
          have hsame : before = confirmed := Except.ok.inj (hbefore.symm.trans hconfirmed)
          subst hsame
          refine ⟨_, hafter, ?_⟩
          rw [Dict.find?_insertAll_of_not_mem, hfind]
          intro hknown
          refine hkept ?_
          show Releases experimentId ⟨_, .adopted ((adopt server rules).outcome c).1⟩
          rw [hresult]
          exact .adopted count hknown
  | reset =>
      cases hresult : (AssignmentCache.reset.outcome c).1 with
      | error fault => exact hx.reset_error hresult
      | ok done =>
          refine absurd ?_ hkept
          show Releases experimentId ⟨_, .changed (AssignmentCache.reset.outcome c).1⟩
          rw [hresult]
          exact .reset
  | reopen => exact hx.congr rfl

/-- And every list of them. -/
theorem Confirmed.after (hc : Coherent c) (hx : Confirmed experimentId variant c)
    (requests : List CacheRequest)
    (hkept : ∀ event ∈ events requests c, ¬ Releases experimentId event) :
    Confirmed experimentId variant (CacheRequest.after requests c) := by
  induction requests generalizing c with
  | nil => exact hx
  | cons request rest ih =>
      have hfirst := hkept _ List.mem_cons_self
      exact ih (hc.perform request) (hx.perform hc request hfirst)
        fun event hevent => hkept event (List.mem_cons_of_mem _ hevent)

theorem confirmed_of_settles (hc : Coherent c) {request : CacheRequest}
    (h : Settles experimentId variant ⟨request, (request.perform c).1⟩) :
    Confirmed experimentId variant (request.perform c).2 := by
  generalize hreply : (request.perform c).1 = reply at h
  cases h with
  | assigned pick =>
      have hresult : ((assign experimentId pick).outcome c).1 = .ok variant :=
        CacheReply.variant.inj hreply
      obtain ⟨-, -, hends⟩ := assign_spec hc (Prod.eta ((assign experimentId pick).outcome c)).symm
      rw [hresult] at hends
      exact confirmed_of_puts hends
  | confirmed =>
      have hresult : ((confirm experimentId variant).outcome c).1 = .ok () :=
        CacheReply.confirmed.inj hreply
      obtain ⟨-, -, hends⟩ :=
        confirm_spec hc (Prod.eta ((confirm experimentId variant).outcome c)).symm
      rw [hresult] at hends
      exact confirmed_of_puts hends

end AssignmentCache
end Placement
