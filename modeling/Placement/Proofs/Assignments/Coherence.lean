import Placement.Assignments
import Placement.Proofs.Stored
/-! # Memory and store agree

`AssignmentCache.Coherent` says that what is in memory, if anything is, is what the store
holds.  Every operation on the assignments keeps it, **whichever of its accesses fail**:
the store is written before memory changes, and a reset that fails halfway drops the
memory (`reset_spec`).

Each operation has one statement `_spec` here, which says all that is used of it: that
it keeps memory and store in agreement, which documents it may change, and what it leaves
among the confirmed assignments.
-/
namespace Placement.AssignmentCache
open Attempt Store
variable {c d : AssignmentCache}

/-- The confirmed assignments that some documents hold. -/
def confirmedIn (documents : Dict Json) : Except PersistenceFault (Dict Variant) :=
  (Key.confirmedAssignments.stored documents).map (·.getD ∅)

/-- **Memory agrees with the store.** -/
def Coherent (cache : AssignmentCache) : Prop :=
  ∀ assignments, cache.loaded = some assignments →
    Key.seed.stored cache.store.documents = .ok (some assignments.seed) ∧
    confirmedIn cache.store.documents = .ok assignments.confirmed

theorem coherent_of_loaded_eq_none (h : c.loaded = none) : Coherent c := by
  intro assignments ha
  rw [h] at ha
  cases ha

theorem coherent_congr (hc : Coherent c) (hloaded : d.loaded = c.loaded)
    (hdocuments : d.store.documents = c.store.documents) : Coherent d := by
  intro assignments ha
  rw [hdocuments]
  exact hc assignments (hloaded ▸ ha)

theorem confirmedIn_congr {e f : Dict Json}
    (h : Key.confirmedAssignments.stored f = Key.confirmedAssignments.stored e) :
    confirmedIn f = confirmedIn e := by
  rw [confirmedIn, h, confirmedIn]

theorem confirmedIn_changesOnly_seed {s t : Store} (h : ChangesOnly [Key.seed.name] s t) :
    confirmedIn t.documents = confirmedIn s.documents :=
  confirmedIn_congr (Key.confirmedAssignments.stored_changesOnly h (by decide))

theorem confirmedIn_insert (confirmed : Dict Variant) (documents : Dict Json) :
    confirmedIn (documents.insert Key.confirmedAssignments.name
      (Key.confirmedAssignments.encode confirmed)) = .ok confirmed := by
  rw [confirmedIn, Key.stored_insert_self _ (Key.decode_confirmedAssignments confirmed)]
  rfl

/-- What is stored under other keys does not matter. -/
theorem coherent_changesOnly {names : List String} (hc : Coherent c) (hloaded : d.loaded = c.loaded)
    (h : ChangesOnly names c.store d.store) (hseed : Key.seed.name ∉ names)
    (hconfirmed : Key.confirmedAssignments.name ∉ names) : Coherent d := by
  intro assignments ha
  rw [Key.seed.stored_changesOnly h hseed,
    confirmedIn_congr (Key.confirmedAssignments.stored_changesOnly h hconfirmed)]
  exact hc assignments (hloaded ▸ ha)

/-- One more variant is confirmed; if its experiment had one already, it was this one. -/
def Puts (experimentId : ExperimentId) (variant : Variant) (c d : AssignmentCache) : Prop :=
  ∃ confirmed, confirmedIn c.store.documents = .ok confirmed ∧
    (∀ other, confirmed.find? experimentId = some other → other = variant) ∧
    confirmedIn d.store.documents = .ok (confirmed.insert experimentId variant)

theorem puts_of_find?_eq_some {experimentId : ExperimentId} {variant : Variant}
    {confirmed : Dict Variant} (hconfirmed : confirmedIn c.store.documents = .ok confirmed)
    (hfind : confirmed.find? experimentId = some variant)
    (hsame : confirmedIn d.store.documents = confirmedIn c.store.documents) :
    Puts experimentId variant c d := by
  refine ⟨confirmed, hconfirmed, ?_, ?_⟩
  · intro other hother
    exact Option.some.inj (hother.symm.trans hfind)
  · rw [Dict.insert_eq_self hfind, hsame, hconfirmed]

theorem Puts.congr {experimentId : ExperimentId} {variant : Variant} {e : AssignmentCache}
    (h : Puts experimentId variant d e)
    (hsame : confirmedIn d.store.documents = confirmedIn c.store.documents) :
    Puts experimentId variant c e := by
  rw [Puts, ← hsame]
  exact h

/-! ## Accesses to the store -/

section
variable {α : Type} {key : Key α}

theorem read_spec {r : Except PersistenceFault (Option α)}
    (h : (onStore key.read).outcome c = (r, d)) :
    d.loaded = c.loaded ∧ d.store.documents = c.store.documents ∧
      ∀ x, r = .ok x → key.stored c.store.documents = .ok x := by
  rw [onStore, outcome_on] at h
  cases h
  refine ⟨rfl, key.read_documents c.store, ?_⟩
  intro x hx
  exact key.read_ok (Prod.ext hx rfl)

theorem write_ok_spec {x : α} (h : (onStore (key.write x)).outcome c = (.ok (), d)) :
    d.loaded = c.loaded ∧
      d.store.documents = c.store.documents.insert key.name (key.encode x) := by
  rw [onStore, outcome_on] at h
  obtain ⟨hr, hd⟩ := Prod.mk.inj h
  subst hd
  exact ⟨rfl, key.write_ok (Prod.ext hr rfl)⟩

theorem write_error_spec {x : α} {fault : PersistenceFault}
    (h : (onStore (key.write x)).outcome c = (.error fault, d)) :
    d.loaded = c.loaded ∧ d.store.documents = c.store.documents := by
  rw [onStore, outcome_on] at h
  obtain ⟨hr, hd⟩ := Prod.mk.inj h
  subst hd
  exact ⟨rfl, key.write_error (Prod.ext hr rfl)⟩

end

/-! ## Loading -/

theorem load_of_loaded {assignments : Assignments} (h : c.loaded = some assignments) :
    load.outcome c = (.ok assignments, c) := by
  rw [load, outcome_bind, outcome_get]
  simp only [h, outcome_pure]

theorem load_of_not_loaded (h : c.loaded = none) :
    load.outcome c = (do
      let seed ← storedSeed
      let confirmed := (← onStore Key.confirmedAssignments.read).getD ∅
      remember ⟨seed, confirmed⟩
      return ⟨seed, confirmed⟩ :
        Attempt AssignmentCache PersistenceFault Assignments).outcome c := by
  rw [load, outcome_bind, outcome_get]
  simp only [h]

theorem outcome_draw {ε : Type} (c : AssignmentCache) :
    (draw : Attempt AssignmentCache ε Seed).outcome c =
      (.ok c.seeds.head, { c with seeds := c.seeds.tail }) := rfl

theorem storedSeed_spec {r : Except PersistenceFault Seed} (h : storedSeed.outcome c = (r, d)) :
    d.loaded = c.loaded ∧ ChangesOnly [Key.seed.name] c.store d.store ∧
      ∀ seed, r = .ok seed → Key.seed.stored d.store.documents = .ok (some seed) := by
  rw [storedSeed] at h
  rcases hread : (onStore Key.seed.read).outcome c with ⟨fault | found, c₁⟩
  · rw [outcome_bind_error hread] at h
    cases h
    obtain ⟨hloaded, hdocuments, -⟩ := read_spec hread
    exact ⟨hloaded, .of_documents_eq _ hdocuments, nofun⟩
  · obtain ⟨hloaded, hdocuments, hstored⟩ := read_spec hread
    rw [outcome_bind_ok hread] at h
    cases found with
    | some seed =>
        cases h
        refine ⟨hloaded, .of_documents_eq _ hdocuments, ?_⟩
        rintro _ ⟨⟩
        rw [hdocuments]
        exact hstored _ rfl
    | none =>
        rw [outcome_bind_ok (outcome_draw c₁)] at h
        rcases hwrite : (onStore (Key.seed.write c₁.seeds.head)).outcome
          { c₁ with seeds := c₁.seeds.tail } with ⟨fault | ⟨⟩, c₂⟩
        · rw [outcome_bind_error hwrite] at h
          cases h
          obtain ⟨hloaded', hdocuments'⟩ := write_error_spec hwrite
          exact ⟨hloaded'.trans hloaded, .of_documents_eq _ (hdocuments'.trans hdocuments), nofun⟩
        · rw [outcome_bind_ok hwrite, outcome_pure] at h
          cases h
          obtain ⟨hloaded', hdocuments'⟩ := write_ok_spec hwrite
          have hinsert : d.store.documents =
              c.store.documents.insert Key.seed.name (Key.seed.encode c₁.seeds.head) := by
            rw [hdocuments', hdocuments]
          refine ⟨hloaded'.trans hloaded, .of_insert hinsert, ?_⟩
          rintro _ ⟨⟩
          rw [hinsert]
          exact Key.stored_insert_self _ (Key.decode_seed _) _

/-- **Loading** leaves what it returns in memory, and writes a seed at most. -/
theorem load_spec {r : Except PersistenceFault Assignments} (hc : Coherent c)
    (h : load.outcome c = (r, d)) :
    Coherent d ∧ ChangesOnly [Key.seed.name] c.store d.store ∧ d.loaded = r.toOption := by
  cases hloaded : c.loaded with
  | some assignments =>
      rw [load_of_loaded hloaded] at h
      cases h
      exact ⟨hc, .refl _ _, hloaded⟩
  | none =>
      rw [load_of_not_loaded hloaded] at h
      rcases hseed : storedSeed.outcome c with ⟨fault | seed, c₁⟩
      · rw [outcome_bind_error hseed] at h
        cases h
        obtain ⟨hloaded₁, hchanges, -⟩ := storedSeed_spec hseed
        rw [hloaded] at hloaded₁
        exact ⟨coherent_of_loaded_eq_none hloaded₁, hchanges, hloaded₁⟩
      · obtain ⟨hloaded₁, hchanges, hstored⟩ := storedSeed_spec hseed
        rw [hloaded] at hloaded₁
        rw [outcome_bind_ok hseed] at h
        rcases hread : (onStore Key.confirmedAssignments.read).outcome c₁ with ⟨fault | found, c₂⟩
        · rw [outcome_bind_error hread] at h
          cases h
          obtain ⟨hloaded₂, hdocuments, -⟩ := read_spec hread
          have hnone : d.loaded = none := hloaded₂.trans hloaded₁
          exact ⟨coherent_of_loaded_eq_none hnone,
            hchanges.trans (.of_documents_eq _ hdocuments), hnone⟩
        · obtain ⟨-, hdocuments, hfound⟩ := read_spec hread
          rw [outcome_bind_ok hread] at h
          cases h
          refine ⟨?_, hchanges.trans (.of_documents_eq _ hdocuments), rfl⟩
          rintro _ ⟨⟩
          show Key.seed.stored c₂.store.documents = _ ∧ confirmedIn c₂.store.documents = _
          rw [hdocuments, confirmedIn, hfound _ rfl]
          exact ⟨hstored _ rfl, rfl⟩

/-- Loading leaves what is confirmed, also where it fails. -/
theorem load_kept {r : Except PersistenceFault Assignments} (hc : Coherent c)
    (h : load.outcome c = (r, d)) :
    Coherent d ∧
      ChangesOnly [Key.seed.name, Key.confirmedAssignments.name] c.store d.store ∧
      confirmedIn d.store.documents = confirmedIn c.store.documents := by
  obtain ⟨hd, hchanges, -⟩ := load_spec hc h
  exact ⟨hd, hchanges.mono (by simp), confirmedIn_changesOnly_seed hchanges⟩

/-- What is loaded is what was confirmed before, in the store. -/
theorem load_ok_spec {assignments : Assignments} (hc : Coherent c)
    (h : load.outcome c = (.ok assignments, d)) :
    Coherent d ∧ ChangesOnly [Key.seed.name] c.store d.store ∧ d.loaded = some assignments ∧
      confirmedIn c.store.documents = .ok assignments.confirmed := by
  obtain ⟨hd, hchanges, hloaded⟩ := load_spec hc h
  exact ⟨hd, hchanges, hloaded,
    (confirmedIn_changesOnly_seed hchanges).symm.trans (hd _ hloaded).2⟩

/-- A seed that is stored is the one that is found. -/
theorem storedSeed_of_stored {seed found : Seed}
    (hstored : Key.seed.stored c.store.documents = .ok (some seed))
    (h : storedSeed.outcome c = (.ok found, d)) : found = seed := by
  rw [storedSeed] at h
  obtain ⟨read, c₁, hread, h⟩ := outcome_bind_eq_ok h
  obtain ⟨-, -, hfound⟩ := read_spec hread
  cases hstored.symm.trans (hfound _ rfl)
  cases h
  rfl

/-- **Loading keeps a seed that is stored.** -/
theorem load_keeps_seed {assignments : Assignments} {seed : Seed} (hc : Coherent c)
    (hstored : Key.seed.stored c.store.documents = .ok (some seed))
    (h : load.outcome c = (.ok assignments, d)) : assignments.seed = seed := by
  cases hloaded : c.loaded with
  | some known =>
      rw [load_of_loaded hloaded] at h
      cases h
      cases (hc _ hloaded).1.symm.trans hstored
      rfl
  | none =>
      rw [load_of_not_loaded hloaded] at h
      obtain ⟨found, c₁, hseed, h⟩ := outcome_bind_eq_ok h
      obtain ⟨read, c₂, -, h⟩ := outcome_bind_eq_ok h
      cases h
      exact storedSeed_of_stored hstored hseed

/-! ## Operations that leave the confirmed assignments alone -/

theorem seed_spec {r : Except PersistenceFault Seed} (hc : Coherent c)
    (h : seed.outcome c = (r, d)) :
    Coherent d ∧ ChangesOnly [Key.seed.name] c.store d.store := by
  rw [seed] at h
  rcases hload : load.outcome c with ⟨fault | assignments, c₁⟩
  · rw [outcome_bind_error hload] at h
    cases h
    exact ⟨(load_spec hc hload).1, (load_spec hc hload).2.1⟩
  · rw [outcome_bind_ok hload] at h
    cases h
    exact ⟨(load_spec hc hload).1, (load_spec hc hload).2.1⟩

theorem foresee_spec {experimentId : ExperimentId} {pick : Seed → Except AssignmentFault Variant}
    {r : Except Failure Variant} (hc : Coherent c)
    (h : (foresee experimentId pick).outcome c = (r, d)) :
    Coherent d ∧ ChangesOnly [Key.seed.name] c.store d.store := by
  rw [foresee] at h
  rcases hload : load.outcome c with ⟨fault | assignments, c₁⟩
  · rw [outcome_bind_error (outcome_mapFault_error hload)] at h
    cases h
    exact ⟨(load_spec hc hload).1, (load_spec hc hload).2.1⟩
  · rw [outcome_bind_ok (outcome_mapFault_ok hload)] at h
    have hstate : d = c₁ := by
      cases hfind : assignments.confirmed.find? experimentId <;> rw [hfind] at h <;> cases h <;> rfl
    rw [hstate]
    exact ⟨(load_spec hc hload).1, (load_spec hc hload).2.1⟩

/-- **Using another seed** keeps what is confirmed. -/
theorem useSeed_spec {seed : Seed} {r : Except PersistenceFault Unit} (hc : Coherent c)
    (h : (useSeed seed).outcome c = (r, d)) :
    Coherent d ∧ ChangesOnly [Key.seed.name] c.store d.store ∧
      (r = .ok () → Key.seed.stored d.store.documents = .ok (some seed)) := by
  rw [useSeed] at h
  rcases hload : load.outcome c with ⟨fault | assignments, c₁⟩
  · rw [outcome_bind_error hload] at h
    cases h
    exact ⟨(load_spec hc hload).1, (load_spec hc hload).2.1, nofun⟩
  · obtain ⟨hc₁, hchanges, hloaded, -⟩ := load_ok_spec hc hload
    rw [outcome_bind_ok hload] at h
    split at h
    · rename_i hseed
      cases h
      exact ⟨hc₁, hchanges, fun _ => hseed ▸ (hc₁ _ hloaded).1⟩
    · rcases hwrite : (onStore (Key.seed.write seed)).outcome c₁ with ⟨fault | ⟨⟩, c₂⟩
      · rw [outcome_bind_error hwrite] at h
        cases h
        obtain ⟨hloaded₂, hdocuments⟩ := write_error_spec hwrite
        exact ⟨coherent_congr hc₁ hloaded₂ hdocuments,
          hchanges.trans (.of_documents_eq _ hdocuments), nofun⟩
      · obtain ⟨-, hdocuments⟩ := write_ok_spec hwrite
        have hwritten : Key.seed.stored c₂.store.documents = .ok (some seed) := by
          rw [hdocuments]
          exact Key.stored_insert_self _ (Key.decode_seed _) _
        rw [outcome_bind_ok hwrite] at h
        cases h
        refine ⟨?_, hchanges.trans (.of_insert hdocuments), fun _ => hwritten⟩
        rintro _ ⟨⟩
        refine ⟨hwritten, ?_⟩
        exact (confirmedIn_changesOnly_seed (.of_insert hdocuments)).trans (hc₁ _ hloaded).2

/-! ## Operations that change the confirmed assignments -/

theorem commit_ok_spec {assignments : Assignments}
    (h : (commit assignments).outcome c = (.ok (), d)) :
    d.loaded = some assignments ∧
      d.store.documents = c.store.documents.insert Key.confirmedAssignments.name
        (Key.confirmedAssignments.encode assignments.confirmed) := by
  rw [commit] at h
  obtain ⟨⟨⟩, c₁, hwrite, h⟩ := outcome_bind_eq_ok h
  cases h
  exact ⟨rfl, (write_ok_spec hwrite).2⟩

theorem commit_error_spec {assignments : Assignments} {fault : PersistenceFault}
    (h : (commit assignments).outcome c = (.error fault, d)) :
    d.loaded = c.loaded ∧ d.store.documents = c.store.documents := by
  rw [commit] at h
  rcases hwrite : (onStore (Key.confirmedAssignments.write assignments.confirmed)).outcome c
    with ⟨fault | ⟨⟩, c₁⟩
  · rw [outcome_bind_error hwrite] at h
    cases h
    exact write_error_spec hwrite
  · rw [outcome_bind_ok hwrite] at h
    cases h

/-- **Committing** changes memory only once the store has changed. -/
theorem commit_spec {assignments before : Assignments} {r : Except PersistenceFault Unit}
    (hc : Coherent c) (hloaded : c.loaded = some before)
    (h : (commit assignments).outcome c = (r, d)) (hseed : assignments.seed = before.seed) :
    Coherent d ∧ ChangesOnly [Key.confirmedAssignments.name] c.store d.store ∧
      Ends r (fun () => confirmedIn d.store.documents = .ok assignments.confirmed)
        (confirmedIn d.store.documents = confirmedIn c.store.documents) := by
  cases r with
  | error fault =>
      obtain ⟨hloaded₁, hdocuments⟩ := commit_error_spec h
      exact ⟨coherent_congr hc hloaded₁ hdocuments, .of_documents_eq _ hdocuments,
        congrArg confirmedIn hdocuments⟩
  | ok done =>
      obtain ⟨hloaded₁, hdocuments⟩ := commit_ok_spec h
      have hconfirmed : confirmedIn d.store.documents = .ok assignments.confirmed := by
        rw [hdocuments]
        exact confirmedIn_insert _ _
      refine ⟨?_, .of_insert hdocuments, hconfirmed⟩
      intro known hknown
      cases hloaded₁.symm.trans hknown
      refine ⟨?_, hconfirmed⟩
      rw [hseed, ← (hc before hloaded).1]
      exact Key.seed.stored_changesOnly (.of_insert hdocuments) (by decide)

/-- **Confirming** puts the variant under its experiment, unless another one is there. -/
theorem confirm_spec {experimentId : ExperimentId} {variant : Variant} {r : Except Failure Unit}
    (hc : Coherent c) (h : (confirm experimentId variant).outcome c = (r, d)) :
    Coherent d ∧
      ChangesOnly [Key.seed.name, Key.confirmedAssignments.name] c.store d.store ∧
      Ends r
        (fun () => Puts experimentId variant c d)
        (confirmedIn d.store.documents = confirmedIn c.store.documents) := by
  rw [confirm] at h
  rcases hload : load.outcome c with ⟨fault | assignments, c₁⟩
  · rw [outcome_bind_error (outcome_mapFault_error hload)] at h
    cases h
    exact load_kept hc hload
  · obtain ⟨hc₁, hchanges, hloaded, hconfirmed⟩ := load_ok_spec hc hload
    rw [outcome_bind_ok (outcome_mapFault_ok hload)] at h
    cases hfind : assignments.confirmed.find? experimentId with
    | some existing =>
        simp only [hfind] at h
        split at h
        · rename_i hsame
          subst hsame
          cases h
          exact ⟨hc₁, hchanges.mono (by simp),
            puts_of_find?_eq_some hconfirmed hfind (confirmedIn_changesOnly_seed hchanges)⟩
        · cases h
          exact ⟨hc₁, hchanges.mono (by simp), confirmedIn_changesOnly_seed hchanges⟩
    | none =>
        simp only [hfind] at h
        rcases hcommit : (commit { assignments with
          confirmed := assignments.confirmed.insert experimentId variant }).outcome c₁
          with ⟨fault | ⟨⟩, c₂⟩
        · rw [outcome_mapFault_error hcommit] at h
          cases h
          obtain ⟨hd, hchanges', hsame⟩ := commit_spec hc₁ hloaded hcommit rfl
          exact ⟨hd, (hchanges.mono (by simp)).trans (hchanges'.mono (by simp)),
            hsame.trans (confirmedIn_changesOnly_seed hchanges)⟩
        · rw [outcome_mapFault_ok hcommit] at h
          cases h
          obtain ⟨hd, hchanges', hwritten⟩ := commit_spec hc₁ hloaded hcommit rfl
          refine ⟨hd, (hchanges.mono (by simp)).trans (hchanges'.mono (by simp)),
            assignments.confirmed, hconfirmed, ?_, hwritten⟩
          intro other hother
          rw [hfind] at hother
          cases hother

/-- **Assigning** confirms what it returns. -/
theorem assign_spec {experimentId : ExperimentId} {pick : Seed → Except AssignmentFault Variant}
    {r : Except Failure Variant} (hc : Coherent c)
    (h : (assign experimentId pick).outcome c = (r, d)) :
    Coherent d ∧
      ChangesOnly [Key.seed.name, Key.confirmedAssignments.name] c.store d.store ∧
      Ends r
        (fun variant => Puts experimentId variant c d)
        (confirmedIn d.store.documents = confirmedIn c.store.documents) := by
  rw [assign] at h
  rcases hload : load.outcome c with ⟨fault | assignments, c₁⟩
  · rw [outcome_bind_error (outcome_mapFault_error hload)] at h
    cases h
    exact load_kept hc hload
  · obtain ⟨hc₁, hchanges, hloaded, hconfirmed⟩ := load_ok_spec hc hload
    have hsame := confirmedIn_changesOnly_seed hchanges
    rw [outcome_bind_ok (outcome_mapFault_ok hload)] at h
    cases hfind : assignments.confirmed.find? experimentId with
    | some existing =>
        simp only [hfind] at h
        cases h
        exact ⟨hc₁, hchanges.mono (by simp), puts_of_find?_eq_some hconfirmed hfind hsame⟩
    | none =>
        simp only [hfind] at h
        cases hpick : pick assignments.seed with
        | error fault =>
            rw [hpick] at h
            cases h
            exact ⟨hc₁, hchanges.mono (by simp), hsame⟩
        | ok variant =>
            have hresult : (ofResult ((pick assignments.seed).mapError Failure.assignment) :
                Attempt AssignmentCache Failure Variant).outcome c₁ = (.ok variant, c₁) := by
              rw [hpick]
              rfl
            rw [outcome_bind_ok hresult] at h
            rcases hconfirm : (confirm experimentId variant).outcome c₁ with ⟨fault | ⟨⟩, c₂⟩
            · rw [outcome_bind_error hconfirm] at h
              cases h
              obtain ⟨hd, hchanges', hsame'⟩ := confirm_spec hc₁ hconfirm
              exact ⟨hd, (hchanges.mono (by simp)).trans hchanges', hsame'.trans hsame⟩
            · rw [outcome_bind_ok hconfirm] at h
              cases h
              obtain ⟨hd, hchanges', hwritten⟩ := confirm_spec hc₁ hconfirm
              exact ⟨hd, (hchanges.mono (by simp)).trans hchanges', hwritten.congr hsame⟩

/-- What a reset stores. -/
def clear (seed : Seed) : Attempt AssignmentCache PersistenceFault Unit := do
  onStore (Key.seed.write seed)
  onStore (Key.confirmedAssignments.write ∅)

theorem outcome_reset (c : AssignmentCache) :
    reset.outcome c =
      match (clear c.seeds.head).outcome { c with seeds := c.seeds.tail } with
      | (.ok (), d) => (.ok (), { d with loaded := some ⟨c.seeds.head, ∅⟩ })
      | (.error fault, d) => (.error fault, d.reopen) := by
  rw [reset, outcome_bind_ok (outcome_draw c), outcome_bind, outcome_caught, ← clear]
  rcases (clear c.seeds.head).outcome { c with seeds := c.seeds.tail } with ⟨fault | ⟨⟩, d⟩ <;> rfl

theorem clear_spec {seed : Seed} {r : Except PersistenceFault Unit}
    (h : (clear seed).outcome c = (r, d)) :
    ChangesOnly [Key.seed.name, Key.confirmedAssignments.name] c.store d.store ∧
      Ends r
        (fun () => Key.seed.stored d.store.documents = .ok (some seed) ∧
          Key.confirmedAssignments.stored d.store.documents = .ok (some ∅))
        (Key.confirmedAssignments.stored d.store.documents =
          Key.confirmedAssignments.stored c.store.documents) := by
  rw [clear] at h
  rcases hseed : (onStore (Key.seed.write seed)).outcome c with ⟨fault | ⟨⟩, c₁⟩
  · rw [outcome_bind_error hseed] at h
    cases h
    obtain ⟨-, hdocuments⟩ := write_error_spec hseed
    exact ⟨.of_documents_eq _ hdocuments,
      congrArg Key.confirmedAssignments.stored hdocuments⟩
  · rw [outcome_bind_ok hseed] at h
    obtain ⟨-, hdocuments⟩ := write_ok_spec hseed
    have hchanges : ChangesOnly [Key.seed.name] c.store c₁.store := .of_insert hdocuments
    cases r with
    | error fault =>
        obtain ⟨-, hdocuments'⟩ := write_error_spec h
        have hchanges' : ChangesOnly [Key.seed.name] c.store d.store :=
          hchanges.trans (.of_documents_eq _ hdocuments')
        exact ⟨hchanges'.mono (by simp),
          Key.confirmedAssignments.stored_changesOnly hchanges' (by decide)⟩
    | ok done =>
        obtain ⟨-, hdocuments'⟩ := write_ok_spec h
        have hlast : ChangesOnly [Key.confirmedAssignments.name] c₁.store d.store :=
          .of_insert hdocuments'
        refine ⟨(hchanges.mono (by simp)).trans (hlast.mono (by simp)), ?_, ?_⟩
        · rw [Key.seed.stored_changesOnly hlast (by decide), hdocuments]
          exact Key.stored_insert_self _ (Key.decode_seed _) _
        · rw [hdocuments']
          exact Key.stored_insert_self _ (Key.decode_confirmedAssignments ∅) _

/-- **A reset** forgets what is confirmed, or fails and leaves it confirmed.  It may then
have stored another seed, so what was in memory is dropped. -/
theorem reset_spec {r : Except PersistenceFault Unit} (h : reset.outcome c = (r, d)) :
    Coherent d ∧
      ChangesOnly [Key.seed.name, Key.confirmedAssignments.name] c.store d.store ∧
      Ends r (fun () => Key.confirmedAssignments.stored d.store.documents = .ok (some ∅))
        (d.loaded = none ∧
          Key.confirmedAssignments.stored d.store.documents =
            Key.confirmedAssignments.stored c.store.documents) := by
  rw [outcome_reset] at h
  rcases hclear : (clear c.seeds.head).outcome { c with seeds := c.seeds.tail }
    with ⟨fault | ⟨⟩, c₁⟩
  · rw [hclear] at h
    cases h
    obtain ⟨hchanges, hkept⟩ := clear_spec hclear
    exact ⟨coherent_of_loaded_eq_none rfl, hchanges, rfl, hkept⟩
  · rw [hclear] at h
    cases h
    obtain ⟨hchanges, hseed, hempty⟩ := clear_spec hclear
    refine ⟨?_, hchanges, hempty⟩
    rintro _ ⟨⟩
    refine ⟨hseed, ?_⟩
    show (Key.confirmedAssignments.stored c₁.store.documents).map _ = _
    rw [hempty]
    rfl

/-- **Adopting** puts the known variants over what is confirmed. -/
theorem adopt_spec {server : List ServerAssignment} {rules : RuleSet}
    {r : Except PersistenceFault Nat} (hc : Coherent c)
    (h : (adopt server rules).outcome c = (r, d)) :
    Coherent d ∧
      ChangesOnly [Key.seed.name, Key.confirmedAssignments.name] c.store d.store ∧
      Ends r
        (fun _ => ∃ confirmed, confirmedIn c.store.documents = .ok confirmed ∧
          confirmedIn d.store.documents = .ok (confirmed.insertAll (knownVariants rules server)))
        (confirmedIn d.store.documents = confirmedIn c.store.documents) := by
  rw [adopt] at h
  rcases hload : load.outcome c with ⟨fault | assignments, c₁⟩
  · rw [outcome_bind_error hload] at h
    cases h
    exact load_kept hc hload
  · obtain ⟨hc₁, hchanges, hloaded, hconfirmed⟩ := load_ok_spec hc hload
    rw [outcome_bind_ok hload] at h
    rcases hcommit : (commit { assignments with
        confirmed := assignments.confirmed.insertAll (knownVariants rules server) }).outcome c₁
      with ⟨fault | ⟨⟩, c₂⟩
    · rw [outcome_bind_error hcommit] at h
      cases h
      obtain ⟨hd, hchanges', hsame⟩ := commit_spec hc₁ hloaded hcommit rfl
      exact ⟨hd, (hchanges.mono (by simp)).trans (hchanges'.mono (by simp)),
        hsame.trans (confirmedIn_changesOnly_seed hchanges)⟩
    · rw [outcome_bind_ok hcommit] at h
      cases h
      obtain ⟨hd, hchanges', hwritten⟩ := commit_spec hc₁ hloaded hcommit rfl
      exact ⟨hd, (hchanges.mono (by simp)).trans (hchanges'.mono (by simp)),
        assignments.confirmed, hconfirmed, hwritten⟩

end Placement.AssignmentCache
