import Placement.Proofs.Engine.Foresight
/-! # Paywalls that may be loaded ahead

An experiment offers its paywall ahead if each of its rules allows it, and the user has, or
would get, a treatment with this paywall (`Engine.Offered`).  **What is listed is exactly what
is offered** (`Engine.preload_exact`), whatever the order in which the rules are gone through.

The order does not count because the ways in which it ends (`Engine.Preloaded`) do not mention
it, and leave no choice.  That is so as long as the device shows the same whenever it is asked;
a rule then is as good as judged before it is its turn (`ahead_of_const`).  Where the device
shows nothing the engine goes down, whichever rule asks for it first.
-/
namespace Placement
open Attempt

/-! ## Stores that do not fail -/

/-- The fault is in what is stored. -/
def PersistenceFault.Undecodable (fault : PersistenceFault) : Prop :=
  ∃ key cause, fault = .undecodable key cause

theorem Key.undecodable_of_stored {α : Type} (key : Key α) {documents : Dict Json}
    {fault : PersistenceFault} (h : key.stored documents = .error fault) : fault.Undecodable := by
  rw [Key.stored] at h
  cases hfound : documents.find? key.name with
  | none =>
      rw [hfound] at h
      cases h
  | some document =>
      rw [hfound, Key.ofDocument] at h
      split at h
      · cases h
      · rename_i cause _
        cases h
        exact ⟨key.name, cause, rfl⟩

/-- **Where the store does not fail, only what is stored can be at fault.** -/
def BlamesDocuments {σ α : Type} (store : σ → Store) (step : Attempt σ PersistenceFault α) : Prop :=
  ∀ s, (store s).faults = .none → (store (step.outcome s).2).faults = .none ∧
    ∀ fault, (step.outcome s).1 = .error fault → fault.Undecodable

section
variable {σ α β : Type} {store : σ → Store}

theorem BlamesDocuments.bind {step : Attempt σ PersistenceFault α}
    {next : α → Attempt σ PersistenceFault β} (hstep : BlamesDocuments store step)
    (hnext : ∀ x, BlamesDocuments store (next x)) : BlamesDocuments store (step >>= next) := by
  intro s hs
  obtain ⟨ht, hfault⟩ := hstep s hs
  rcases h : step.outcome s with ⟨fault | x, t⟩
  · rw [h] at ht hfault
    rw [outcome_bind_error h]
    refine ⟨ht, ?_⟩
    rintro _ ⟨⟩
    exact hfault fault rfl
  · rw [h] at ht
    rw [outcome_bind_ok h]
    exact hnext x t ht

/-- A step that leaves the store and does not fail. -/
theorem blamesDocuments_of_ok {step : Attempt σ PersistenceFault α}
    (h : ∀ s, store (step.outcome s).2 = store s ∧ ∃ x, (step.outcome s).1 = .ok x) :
    BlamesDocuments store step := by
  intro s hs
  obtain ⟨hstore, x, hx⟩ := h s
  rw [hstore, hx]
  exact ⟨hs, nofun⟩

theorem blamesDocuments_read {set : Store → σ → σ} (hset : ∀ t s, store (set t s) = t)
    (key : Key α) : BlamesDocuments store (key.read.on store set) := by
  intro s hs
  rw [outcome_on, key.outcome_read_of_calm hs]
  dsimp only
  rw [hset]
  exact ⟨hs, fun fault hfault => key.undecodable_of_stored hfault⟩

theorem blamesDocuments_write {set : Store → σ → σ} (hset : ∀ t s, store (set t s) = t)
    (key : Key α) (x : α) : BlamesDocuments store ((key.write x).on store set) := by
  intro s hs
  rw [outcome_on, key.outcome_write_of_calm hs]
  dsimp only
  rw [hset]
  exact ⟨hs, nofun⟩

end

namespace AssignmentCache

theorem blamesDocuments_onStore_read {α : Type} (key : Key α) :
    BlamesDocuments AssignmentCache.store (onStore key.read) :=
  blamesDocuments_read (fun _ _ => rfl) key

theorem blamesDocuments_storedSeed : BlamesDocuments AssignmentCache.store storedSeed := by
  refine (blamesDocuments_onStore_read _).bind fun stored => ?_
  split
  · exact blamesDocuments_of_ok fun _ => ⟨rfl, _, rfl⟩
  · refine BlamesDocuments.bind (blamesDocuments_of_ok fun c => ⟨rfl, c.seeds.head, rfl⟩)
      fun seed => ?_
    refine BlamesDocuments.bind (blamesDocuments_write (fun _ _ => rfl) _ _) fun _ => ?_
    exact blamesDocuments_of_ok fun _ => ⟨rfl, _, rfl⟩

theorem blamesDocuments_load : BlamesDocuments AssignmentCache.store load := by
  refine BlamesDocuments.bind (blamesDocuments_of_ok fun c => ⟨rfl, c, rfl⟩) fun c => ?_
  split
  · exact blamesDocuments_of_ok fun _ => ⟨rfl, _, rfl⟩
  · refine blamesDocuments_storedSeed.bind fun seed => ?_
    refine (blamesDocuments_onStore_read _).bind fun confirmed => ?_
    exact BlamesDocuments.bind (blamesDocuments_of_ok fun _ => ⟨rfl, _, rfl⟩) fun _ =>
      blamesDocuments_of_ok fun _ => ⟨rfl, _, rfl⟩

end AssignmentCache

namespace Engine
open AssignmentCache
variable {e f : Engine} {rules inOrder : List Rule} {now : Timestamp}
  {shown : Option Attributes}

theorem blamesDocuments_currentUser : BlamesDocuments Engine.store currentUser := by
  have hset : ∀ (t : Store) (e : Engine), (setStore t e).store = t := fun _ _ => rfl
  refine BlamesDocuments.bind (blamesDocuments_of_ok fun e => ⟨rfl, e, rfl⟩) fun e => ?_
  split
  · exact blamesDocuments_of_ok fun _ => ⟨rfl, _, rfl⟩
  · refine (blamesDocuments_read hset _).bind fun attributes => ?_
    refine (blamesDocuments_read hset _).bind fun id => ?_
    exact BlamesDocuments.bind (blamesDocuments_of_ok fun _ => ⟨rfl, _, rfl⟩) fun _ =>
      blamesDocuments_of_ok fun _ => ⟨rfl, _, rfl⟩

/-- To load the user from a store that does not fail leaves the assignments. -/
theorem cache_currentUser (h : e.store.faults = .none) :
    (currentUser.outcome e).2.cache = e.cache := by
  refine within_currentUser (R := fun e d => e.store.faults = .none → d.cache = e.cache)
    (fun _ _ => rfl) ?_ ?_ (fun _ _ _ => rfl) e h
  · intro e d f hd hf he
    have hcache := hd he
    rw [hf (by rw [Engine.store, hcache]; exact he), hcache]
  · intro α key e he
    rw [Engine.onStore, outcome_on, key.outcome_read_of_calm he]
    rfl

/-! ## What is offered -/

/-- All rules of one experiment carry the same variants. -/
def SameVariants (rules : List Rule) : Prop :=
  ∀ rule ∈ rules, ∀ other ∈ rules, other.experimentId = rule.experimentId →
    other.variants = rule.variants

/-- **The user's variant of an experiment**: the confirmed one, or else what the seed
chooses. -/
inductive Has (assignments : Assignments) (rule : Rule) (variant : Variant) : Prop
  | confirmed (h : assignments.confirmed.find? rule.experimentId = some variant)
  | chosen (hnone : assignments.confirmed.find? rule.experimentId = none)
      (h : choose rule assignments.seed = .ok variant)

/-- A rule allows its paywall to be loaded ahead: always, or because its condition holds. -/
def Allows (scene : Scene) (rule : Rule) : Prop :=
  rule.preload.behavior = .always ∨
    rule.preload.behavior = .ifTrue ∧ scene.holds rule = .ok true

/-- **A paywall is offered ahead by some experiment**: all of its rules allow it, and the user's
variant shows the paywall. -/
def Offered (scene : Scene) (assignments : Assignments) (rules : List Rule) (paywallId : String) :
    Prop :=
  ∃ rule ∈ rules,
    (∀ other ∈ rules, other.experimentId = rule.experimentId → Allows scene other) ∧
    ∃ variant, Has assignments rule variant ∧ variant.type = .treatment ∧
      variant.paywallId = some paywallId

/-- **How the list of paywalls comes out**, in an engine whose store does not fail. -/
inductive Preloaded (e : Engine) (rules : List Rule) (now : Timestamp) :
    Except Crash (Except PersistenceFault (List String)) → Prop
  /-- What is stored of the user cannot be decoded. -/
  | unloaded {fault : PersistenceFault}
      (unloaded : (currentUser.outcome e).1 = .error fault) (blame : fault.Undecodable) :
      Preloaded e rules now (.ok (.error fault))
  /-- What is stored of the assignments cannot be decoded. -/
  | unassigned {user : User} {fault : PersistenceFault}
      (loaded : (currentUser.outcome e).1 = .ok user)
      (unassigned : (load.outcome e.cache).1 = .error fault) (blame : fault.Undecodable) :
      Preloaded e rules now (.ok (.error fault))
  /-- The device shows nothing to a condition that has to be judged. -/
  | broken {user : User} {assignments : Assignments} {rule : Rule}
      (loaded : (currentUser.outcome e).1 = .ok user)
      (assigned : (load.outcome e.cache).1 = .ok assignments)
      (asked : rule ∈ rules ∧ rule.preload.behavior = .ifTrue)
      (cause : e.device.answers.head = none) :
      Preloaded e rules now (.error .device)
  /-- Each paywall that is offered is listed once, and no other; the variants are those that
  assigning would give. -/
  | listed {user : User} {assignments : Assignments} {ids : List String}
      (loaded : (currentUser.outcome e).1 = .ok user)
      (assigned : (load.outcome e.cache).1 = .ok assignments)
      (judged : ∀ rule ∈ rules, rule.preload.behavior = .ifTrue →
        ∃ holds, (e.scene user.attributes ∅ now).holds rule = .ok holds)
      (ascending : ids.Pairwise (· < ·))
      (exact : ∀ paywallId, paywallId ∈ ids ↔
        Offered (e.scene user.attributes ∅ now) assignments rules paywallId)
      (given : ∀ rule ∈ rules, ∀ variant, Has assignments rule variant ↔
        ((variantFor rule .commit).outcome e.cache).1 = .ok variant) :
      Preloaded e rules now (.ok (.ok ids))

/-! ## The order of the rules -/

theorem SameVariants.perm (h : SameVariants rules) (hperm : inOrder.Perm rules) :
    SameVariants inOrder :=
  fun rule hrule other hother => h rule (hperm.mem_iff.mp hrule) other (hperm.mem_iff.mp hother)

theorem offered_perm (hperm : inOrder.Perm rules) (scene : Scene) (assignments : Assignments)
    (paywallId : String) :
    Offered scene assignments inOrder paywallId ↔ Offered scene assignments rules paywallId := by
  rw [Offered, Offered]
  refine exists_congr fun rule => and_congr hperm.mem_iff (and_congr_left fun _ => ?_)
  exact forall_congr' fun other => imp_congr_left hperm.mem_iff

theorem Preloaded.perm {result : Except Crash (Except PersistenceFault (List String))}
    (h : Preloaded e inOrder now result) (hperm : inOrder.Perm rules) :
    Preloaded e rules now result := by
  cases h with
  | unloaded unloaded blame => exact .unloaded unloaded blame
  | unassigned loaded unassigned blame => exact .unassigned loaded unassigned blame
  | broken loaded assigned asked cause =>
      exact .broken loaded assigned ⟨hperm.mem_iff.mp asked.1, asked.2⟩ cause
  | listed loaded assigned judged ascending exact given =>
      refine .listed loaded assigned ?_ ascending ?_ ?_
      · exact fun rule hrule => judged rule (hperm.mem_iff.mpr hrule)
      · exact fun paywallId => (exact paywallId).trans (offered_perm hperm _ _ _)
      · exact fun rule hrule => given rule (hperm.mem_iff.mpr hrule)

/-- No condition is judged by a device that shows nothing. -/
theorem not_judged_of_down (hdown : e.device.answers.head = none) {user : User} {rule : Rule}
    {holds : Bool} : (e.scene user.attributes ∅ now).holds rule ≠ .ok holds := by
  intro hholds
  rw [Scene.holds, scene, hdown] at hholds
  cases hholds

/-- Ascending lists with the same members are equal. -/
theorem eq_of_ascending {s t : List String} (hs : s.Pairwise (· < ·)) (ht : t.Pairwise (· < ·))
    (h : ∀ x, x ∈ s ↔ x ∈ t) : s = t := by
  have hnodup : ∀ {l : List String}, l.Pairwise (· < ·) → l.Nodup :=
    fun hl => hl.imp fun hlt => String.ne_of_lt hlt
  have hperm : s.Perm t := (List.perm_ext_iff_of_nodup (hnodup hs) (hnodup ht)).mpr h
  exact hperm.eq_of_pairwise (fun a b _ _ hab hba => absurd hba (String.lt_asymm hab)) hs ht

/-- **There is one way in which it ends.** -/
theorem Preloaded.unique {first second : Except Crash (Except PersistenceFault (List String))}
    (h : Preloaded e rules now first) (h' : Preloaded e rules now second) : first = second := by
  cases h with
  | unloaded unloaded =>
      cases h' with
      | unloaded unloaded' =>
          cases unloaded.symm.trans unloaded'
          rfl
      | unassigned loaded' => cases unloaded.symm.trans loaded'
      | broken loaded' => cases unloaded.symm.trans loaded'
      | listed loaded' => cases unloaded.symm.trans loaded'
  | unassigned loaded unassigned =>
      cases h' with
      | unloaded unloaded' => cases loaded.symm.trans unloaded'
      | unassigned _ unassigned' =>
          cases unassigned.symm.trans unassigned'
          rfl
      | broken _ assigned' => cases unassigned.symm.trans assigned'
      | listed _ assigned' => cases unassigned.symm.trans assigned'
  | broken loaded assigned asked cause =>
      cases h' with
      | unloaded unloaded' => cases loaded.symm.trans unloaded'
      | unassigned _ unassigned' => cases assigned.symm.trans unassigned'
      | broken => rfl
      | listed _ _ judged' =>
          obtain ⟨holds, hholds⟩ := judged' _ asked.1 asked.2
          exact absurd hholds (not_judged_of_down cause)
  | listed loaded assigned judged ascending exact =>
      cases h' with
      | unloaded unloaded' => cases loaded.symm.trans unloaded'
      | unassigned _ unassigned' => cases assigned.symm.trans unassigned'
      | broken _ _ asked' cause' =>
          obtain ⟨holds, hholds⟩ := judged _ asked'.1 asked'.2
          exact absurd hholds (not_judged_of_down cause')
      | listed loaded' assigned' _ ascending' exact' =>
          cases loaded.symm.trans loaded'
          cases assigned.symm.trans assigned'
          rw [eq_of_ascending ascending ascending' fun x => (exact x).trans (exact' x).symm]

/-! ## What is listed -/

section
variable {scene : Scene} {assignments : Assignments} {rule : Rule} {variant : Variant}

theorem variantAhead_eq_some_iff : variantAhead assignments rule = some variant ↔
    Has assignments rule variant := by
  rw [variantAhead]
  cases hconfirmed : assignments.confirmed.find? rule.experimentId with
  | some found =>
      constructor
      · rintro ⟨⟩
        exact .confirmed hconfirmed
      · rintro (h | ⟨hnone, -⟩)
        · exact hconfirmed.symm.trans h
        · cases hconfirmed.symm.trans hnone
  | none =>
      constructor
      · intro h
        refine .chosen hconfirmed ?_
        cases hchoose : choose rule assignments.seed with
        | error fault =>
            rw [hchoose] at h
            cases h
        | ok chosen =>
            rw [hchoose] at h
            cases h
            rfl
      · rintro (h | ⟨-, h⟩)
        · cases hconfirmed.symm.trans h
        · dsimp only
          rw [h]
          rfl

/-- Which rule of an experiment is asked for its variant makes no difference. -/
theorem SameVariants.variantAhead_eq (h : SameVariants rules) {other : Rule} (hrule : rule ∈ rules)
    (hother : other ∈ rules) (hsame : other.experimentId = rule.experimentId) :
    variantAhead assignments other = variantAhead assignments rule := by
  rw [variantAhead, variantAhead, choose, choose, hsame, h rule hrule other hother hsame]

/-- **The first variant that is found for an experiment is the only one.** -/
theorem find?_variantsAhead (h : SameVariants rules) (experimentId : ExperimentId) :
    (variantsAhead assignments rules).find? experimentId = some variant ↔
      ∃ rule ∈ rules, rule.experimentId = experimentId ∧ Has assignments rule variant := by
  induction rules with
  | nil => exact ⟨nofun, fun ⟨_, hmem, _⟩ => absurd hmem List.not_mem_nil⟩
  | cons first rest ih =>
      have hrest : SameVariants rest := fun rule hrule other hother =>
        h rule (List.mem_cons_of_mem _ hrule) other (List.mem_cons_of_mem _ hother)
      have hmore : (∃ rule ∈ first :: rest, rule.experimentId = experimentId ∧
          Has assignments rule variant) ↔
            (first.experimentId = experimentId ∧ Has assignments first variant) ∨
              ∃ rule ∈ rest, rule.experimentId = experimentId ∧ Has assignments rule variant := by
        simp only [List.mem_cons, or_and_right, exists_or, exists_eq_left]
      rw [hmore, ← ih hrest, ← variantAhead_eq_some_iff, variantsAhead]
      cases hfirst : variantAhead assignments first with
      | none =>
          dsimp only
          rw [or_iff_right fun h => nomatch h.2]
      | some found =>
          dsimp only
          rw [Dict.find?_insert, Option.some.injEq]
          by_cases hsame : first.experimentId = experimentId
          · rw [if_pos hsame, Option.some.injEq]
            refine ⟨fun heq => .inl ⟨hsame, heq⟩, ?_⟩
            rintro (⟨-, heq⟩ | hlater)
            · exact heq
            · -- A later rule of the experiment has the same variant.
              obtain ⟨rule, hrule, hid, hhas⟩ := (ih hrest).mp hlater
              have heq : variantAhead assignments rule = variantAhead assignments first :=
                h.variantAhead_eq List.mem_cons_self (List.mem_cons_of_mem _ hrule)
                  (hid.trans hsame.symm)
              rw [hfirst, variantAhead_eq_some_iff.mpr hhas] at heq
              exact (Option.some.inj heq).symm
          · rw [if_neg hsame, or_iff_right fun h => hsame h.1]

/-- Whether a rule allows its paywall is what its policy makes of its condition. -/
theorem allows_iff {holds : Bool}
    (h : rule.preload.behavior = .ifTrue → scene.holds rule = .ok holds) :
    rule.preload.allows holds = true ↔ Allows scene rule := by
  rw [PreloadPolicy.allows, Allows]
  cases hbehavior : rule.preload.behavior with
  | ifTrue =>
      rw [h hbehavior]
      constructor
      · rintro rfl
        exact .inr ⟨rfl, rfl⟩
      · rintro (h | ⟨-, h⟩)
        · cases h
        · cases h
          rfl
  | always => exact ⟨fun _ => .inl rfl, fun _ => rfl⟩
  | never =>
      refine ⟨nofun, ?_⟩
      rintro (h | ⟨h, -⟩)
      · cases h
      · cases h

/-- A device that shows the same whenever it is asked leaves the scene as it is. -/
theorem ahead_of_const (hdevice : scene.device = Tape.const shown) (n : Nat) :
    scene.ahead n = scene := by
  rw [Scene.ahead, hdevice]
  exact congrArg (fun device => { scene with device }) hdevice.symm

/-- One rule is judged, if its policy asks for it, and then the others. -/
theorem allowances_cons (hdevice : scene.device = Tape.const shown) (rule : Rule)
    (rest : List Rule) :
    (∃ crash, rule.preload.behavior = .ifTrue ∧ scene.holds rule = .error crash ∧
      scene.allowances (rule :: rest) = .error crash) ∨
    ∃ holds, (rule.preload.behavior = .ifTrue → scene.holds rule = .ok holds) ∧
      scene.allowances (rule :: rest) = (do
        let others ← scene.allowances rest
        return (rule, rule.preload.allows holds) :: others) := by
  rw [Scene.allowances, ahead_of_const hdevice]
  by_cases hbehavior : rule.preload.behavior = .ifTrue
  · rw [if_pos hbehavior]
    rcases scene.holds rule with crash | holds
    · exact .inl ⟨crash, hbehavior, rfl, rfl⟩
    · exact .inr ⟨holds, fun _ => rfl, rfl⟩
  · rw [if_neg hbehavior]
    exact .inr ⟨true, fun h => absurd h hbehavior, rfl⟩

/-- **Either each rule is judged, or one of them brings the engine down.** -/
theorem allowances_spec (hdevice : scene.device = Tape.const shown) (rules : List Rule) :
    (∃ allowances, scene.allowances rules = .ok allowances ∧ allowances.map Prod.fst = rules ∧
      (∀ allowance ∈ allowances, allowance.2 = true ↔ Allows scene allowance.1) ∧
      ∀ rule ∈ rules, rule.preload.behavior = .ifTrue → ∃ holds, scene.holds rule = .ok holds) ∨
    ∃ rule crash, (rule ∈ rules ∧ rule.preload.behavior = .ifTrue) ∧
      scene.holds rule = .error crash ∧ scene.allowances rules = .error crash := by
  induction rules with
  | nil => exact .inl ⟨[], rfl, rfl, nofun, nofun⟩
  | cons rule rest ih =>
      rcases allowances_cons hdevice rule rest with
        ⟨crash, hbehavior, hcrash, hall⟩ | ⟨holds, hholds, hall⟩
      · exact .inr ⟨rule, crash, ⟨List.mem_cons_self, hbehavior⟩, hcrash, hall⟩
      · rw [hall]
        rcases ih with ⟨others, hothers, hrules, hallows, hjudged⟩ |
          ⟨other, crash, hasked, hcrash, hothers⟩
        · rw [hothers]
          refine .inl ⟨(rule, rule.preload.allows holds) :: others, rfl, ?_, ?_, ?_⟩
          · rw [List.map_cons, hrules]
          · exact List.forall_mem_cons.mpr ⟨allows_iff hholds, hallows⟩
          · exact List.forall_mem_cons.mpr ⟨fun h => ⟨holds, hholds h⟩, hjudged⟩
        · rw [hothers]
          exact .inr ⟨other, crash, ⟨List.mem_cons_of_mem _ hasked.1, hasked.2⟩, hcrash, rfl⟩

/-- An experiment is passed if each of its rules allows it. -/
theorem allowedAhead_iff {allowances : List (Rule × Bool)} (experimentId : ExperimentId)
    (hallows : ∀ allowance ∈ allowances, allowance.2 = true ↔ Allows scene allowance.1) :
    allowedAhead allowances experimentId = true ↔
      ∀ rule ∈ allowances.map Prod.fst, rule.experimentId = experimentId → Allows scene rule := by
  rw [allowedAhead, List.all_eq_true, List.forall_mem_map]
  refine forall₂_congr fun allowance hmem => ?_
  rw [Bool.or_eq_true, bne_iff_ne, hallows allowance hmem]
  exact Decidable.imp_iff_not_or.symm

theorem paywallAhead_eq_some_iff {paywallId : String} :
    paywallAhead variant = some paywallId ↔
      variant.type = .treatment ∧ variant.paywallId = some paywallId := by
  rw [paywallAhead]
  cases variant.type with
  | treatment => exact ⟨fun h => ⟨rfl, h⟩, fun h => h.2⟩
  | holdout => exact ⟨nofun, nofun⟩

/-- **What is listed is what is offered.** -/
theorem mem_paywallsAhead {allowances : List (Rule × Bool)}
    (hrules : allowances.map Prod.fst = rules) (hsame : SameVariants rules)
    (hallows : ∀ allowance ∈ allowances, allowance.2 = true ↔ Allows scene allowance.1)
    (paywallId : String) :
    paywallId ∈ paywallsAhead assignments allowances ↔
      Offered scene assignments rules paywallId := by
  rw [paywallsAhead, Dict.mem_keys_ofList, List.map_map, Offered]
  simp only [Function.comp_def, List.map_id', List.mem_filterMap, List.mem_filter, Prod.exists,
    Dict.mem_entries_iff, hrules, find?_variantsAhead hsame, allowedAhead_iff _ hallows,
    paywallAhead_eq_some_iff]
  constructor
  · rintro ⟨_, variant, ⟨⟨rule, hrule, rfl, hhas⟩, hall⟩, hshows⟩
    exact ⟨rule, hrule, hall, variant, hhas, hshows⟩
  · rintro ⟨rule, hrule, hall, variant, hhas, hshows⟩
    exact ⟨_, variant, ⟨⟨rule, hrule, rfl, hhas⟩, hall⟩, hshows⟩

end

/-! ## Loading ahead -/

/-- **The variants are those that assigning would give.** -/
theorem has_iff_assigned {cache cache' : AssignmentCache} {assignments : Assignments}
    (hc : cache.Coherent) (hcalm : cache.store.faults = .none)
    (hload : load.outcome cache = (.ok assignments, cache')) (rule : Rule) (variant : Variant) :
    Has assignments rule variant ↔
      ((variantFor rule .commit).outcome cache).1 = .ok variant := by
  rw [variantFor, assign_eq_foresee hc hcalm, foresee,
    outcome_bind_ok (outcome_mapFault_ok hload), ← variantAhead_eq_some_iff, variantAhead]
  cases assignments.confirmed.find? rule.experimentId with
  | some found =>
      dsimp only
      rw [outcome_pure, Option.some.injEq, Except.ok.injEq]
  | none =>
      dsimp only
      rw [outcome_ofResult]
      cases choose rule assignments.seed with
      | error fault =>
          constructor
          · intro h
            cases h
          · intro h
            cases h
      | ok chosen =>
          exact ⟨fun h => congrArg _ (Option.some.inj h), fun h => congrArg _ (Except.ok.inj h)⟩

/-- At a time that is late enough a condition is not judged only for want of the device. -/
theorem down_of_holds_error {scene : Scene} {rule : Rule} {crash : Crash}
    (hlate : Resolver.Late scene.now) (h : scene.holds rule = .error crash) :
    crash = .device ∧ scene.device.head = none := by
  rcases Scene.holds_error h with hdown | ⟨-, request, hearly⟩
  · exact hdown
  · exact absurd hearly (Resolver.not_tooEarly_of_late hlate)

/-- How it ends, whatever the order of the rules. -/
theorem preloadInOrder_spec (he : Consistent e) (hhistory : e.history.faults = .none)
    (hstore : e.store.faults = .none) (hdevice : e.device.answers = Tape.const shown)
    (hsame : SameVariants rules) (hlate : Resolver.Late now) :
    Preloaded e rules now ((preloadInOrder rules now).outcome e).1 := by
  obtain ⟨-, hblame⟩ := blamesDocuments_currentUser e hstore
  have hsurroundings := sameSurroundings_currentUser e
  have hcache := cache_currentUser hstore
  rw [preloadInOrder]
  rcases hloaded : currentUser.outcome e with ⟨fault | user, f⟩
  · rw [hloaded] at hblame
    rw [outcome_bind_ok (outcome_caught_eq hloaded)]
    exact .unloaded (congrArg Prod.fst hloaded) (hblame fault rfl)
  rw [hloaded] at hsurroundings hcache
  rw [outcome_bind_ok (outcome_caught_eq hloaded)]
  obtain ⟨-, hblame⟩ := blamesDocuments_load e.cache hstore
  have hload : (onCache load).outcome f =
      ((load.outcome e.cache).1, { f with cache := (load.outcome e.cache).2 }) := by
    rw [onCache, outcome_on, hcache]
  rcases hassigned : load.outcome e.cache with ⟨fault | assignments, cache⟩
  all_goals
    rw [hassigned] at hload
    dsimp only
    rw [outcome_bind_ok (outcome_caught_eq hload)]
  · rw [hassigned] at hblame
    exact .unassigned (congrArg Prod.fst hloaded) (congrArg Prod.fst hassigned) (hblame fault rfl)
  dsimp only
  -- To load user and assignments changes nothing that the conditions look at.
  have hscene : Engine.scene { f with cache } user.attributes ∅ now =
      e.scene user.attributes ∅ now := by
    rw [scene, scene, hsurroundings.history, hsurroundings.device]
  have hcalm : f.history.faults = .none := by rw [hsurroundings.history, hhistory]
  obtain ⟨d, -, hallowances⟩ := preloadAllowances_spec (e := { f with cache })
    user.attributes now hcalm rules Scene.right_nil
  rw [hscene] at hallowances
  have hsteady : (e.scene user.attributes ∅ now).device = Tape.const shown := hdevice
  rcases allowances_spec hsteady rules with
    ⟨allowances, hok, hrules, hallows, hjudged⟩ | ⟨rule, crash, hasked, hcrash, herror⟩
  · rw [hok] at hallowances
    rw [outcome_bind_ok hallowances]
    exact .listed (congrArg Prod.fst hloaded) (congrArg Prod.fst hassigned) hjudged
      (Dict.pairwise_keys _) (mem_paywallsAhead hrules hsame hallows)
      fun rule _ => has_iff_assigned he.cache hstore hassigned rule
  · rw [herror] at hallowances
    rw [outcome_bind_error hallowances]
    obtain ⟨rfl, hdown⟩ := down_of_holds_error hlate hcrash
    exact .broken (congrArg Prod.fst hloaded) (congrArg Prod.fst hassigned) hasked hdown

/-- **The paywalls that may be loaded ahead are exactly those that are offered**, in every
engine that can be reached, over a store and a history that do not fail, with a device that shows
the same whenever it is asked, for rules of which those of one experiment carry the same variants,
and at any time at least thirty days after the first instant.  The order of the rules does not
count.

There is no list where what is stored cannot be decoded, or where the device shows nothing to a
condition that has to be judged. -/
theorem preload_exact (he : Reachable e) (hhistory : e.history.faults = .none)
    (hstore : e.store.faults = .none) (hdevice : e.device.answers = Tape.const shown)
    (rules : RuleSet) (hsame : SameVariants rules.all) (now : Timestamp)
    (hlate : Timestamp.minNanos + 30 * Timestamp.nanosPerDay ≤ now.nanos) :
    Preloaded e rules.all now ((preload rules now).outcome e).1 ∧
      ∀ inOrder : List Rule, inOrder.Perm rules.all →
        ((preloadInOrder inOrder now).outcome e).1 = ((preload rules now).outcome e).1 := by
  have hpreloaded : Preloaded e rules.all now ((preload rules now).outcome e).1 :=
    preloadInOrder_spec he.consistent hhistory hstore hdevice hsame hlate
  refine ⟨hpreloaded, fun inOrder hperm => ?_⟩
  have hother := preloadInOrder_spec he.consistent hhistory hstore hdevice (hsame.perm hperm) hlate
  exact (hother.perm hperm).unique hpreloaded

/-- A rule that allows its paywall only for one of two events. -/
def upgrade (behavior : PreloadBehavior) : Rule :=
  { Rule.unconditional "upgrade" "plans" [.treatment "silver" 100 "silver"] with
    preload := ⟨behavior, false⟩ }

/-- The rules for a launch and for a purchase. -/
def upgradeRules : RuleSet :=
  ⟨0, Dict.ofList [(firstLaunch.name, [upgrade .always, welcome]), ("purchase", [upgrade .never])]⟩

/-- Of two experiments one is kept back by a rule for another event. -/
theorem preload_upgradeRules :
    Preloaded (welcoming false) upgradeRules.all .epoch (.ok (.ok ["gold"])) ∧
      ((preloadInOrder [upgrade .never, upgrade .always, welcome] .epoch).outcome
        (welcoming false)).1 = .ok (.ok ["gold"]) := by
  have hlisted : ((preload upgradeRules .epoch).outcome (welcoming false)).1 =
      .ok (.ok ["gold"]) := by with_unfolding_all rfl
  have hexact := preload_exact (reachable_welcoming false) rfl rfl rfl upgradeRules
    (by unfold SameVariants; decide) .epoch (by decide)
  have horder : [upgrade .never, upgrade .always, welcome].Perm upgradeRules.all :=
    @List.perm_append_comm _ [upgrade .never] [upgrade .always, welcome]
  rw [hlisted] at hexact
  exact ⟨hexact.1, hexact.2 _ horder⟩

/-- **There need not be a list**: where the source of device attributes breaks down the engine
goes down with it, although nothing fails, the only rule has no condition, and assigning would
give a treatment.  The caller is told that the worker does not run. -/
theorem preload_without_list :
    Reachable (welcoming true) ∧ (welcoming true).history.faults = .none ∧
      (welcoming true).store.faults = .none ∧ SameVariants welcomeRules.all ∧
      welcomeRules.all = [welcome] ∧ welcome.preload.behavior = .ifTrue ∧
      welcome.condition = .ok none ∧ (currentUser.outcome (welcoming true)).1 = .ok .unknown ∧
      ((variantFor welcome .commit).outcome (welcoming true).cache).1 =
        .ok ⟨"gold", .treatment, some "gold"⟩ ∧
      (¬∃ ids, ((preload welcomeRules .epoch).outcome (welcoming true)).1 = .ok (.ok ids)) ∧
      ((Dispatcher.start (welcoming true) welcomeRules).ask
        (.preload welcomeRules .epoch)).work.replyFor 0 (.preload welcomeRules .epoch) =
          .failed .workerUnavailable := by
  have hdown : ((preload welcomeRules .epoch).outcome (welcoming true)).1 = .error .device := rfl
  refine ⟨reachable_welcoming true, rfl, rfl, by unfold SameVariants; decide, rfl, rfl, rfl, rfl,
    rfl, ?_, rfl⟩
  rintro ⟨ids, hids⟩
  cases hdown.symm.trans hids

end Engine
end Placement
