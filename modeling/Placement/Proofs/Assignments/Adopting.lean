import Mathlib.Data.List.Count
import Placement.Proofs.Assignments.Session
/-! # Assignments that the server decided

Adopting a list of assignments **merges it into what is confirmed** (`Merges`): of those that
name a variant of the rules the last one for each experiment counts, experiments without any
keep what they had, and so does the seed.  This is so in memory and in the store alike, or
nowhere (`adopt_merges`).

What an assignment names (`Names`) is said without an order of rules: as long as none names two
variants, the order in which the rules are searched does not matter (`knownIn_perm`).
-/
namespace Placement.AssignmentCache
open Attempt Store CacheRequest
variable {c d : AssignmentCache} {rules : List Rule} {server : List ServerAssignment}
  {assigned : ServerAssignment} {variant : Variant}

/-! ## What an assignment names -/

/-- **A variant that an assignment names** among some rules. -/
def Names (rules : List Rule) (assigned : ServerAssignment) (variant : Variant) : Prop :=
  ∃ rule ∈ rules, rule.experimentId = assigned.experimentId ∧
    ∃ option ∈ rule.variants, option.id = assigned.variantId ∧ option.toVariant = variant

/-- The assignment names some variant. -/
def Known (rules : List Rule) (assigned : ServerAssignment) : Prop :=
  ∃ variant, Names rules assigned variant

/-- **No assignment names two variants.** -/
def Unambiguous (rules : List Rule) : Prop :=
  ∀ assigned variant other, Names rules assigned variant → Names rules assigned other →
    variant = other

/-- What is found for an assignment when rules are searched in their order. -/
def variantIn (rules : List Rule) (assigned : ServerAssignment) : Option VariantOption :=
  ((rules.filter fun rule => rule.experimentId == assigned.experimentId).flatMap
    Rule.variants).find? fun option => option.id == assigned.variantId

/-- The experiment of an assignment with the variant that is found for it. -/
def entryIn (rules : List Rule) (assigned : ServerAssignment) : Option (ExperimentId × Variant) :=
  (variantIn rules assigned).map fun option => (assigned.experimentId, option.toVariant)

/-- The assignments for which something is found, when rules are searched in their order. -/
def knownIn (rules : List Rule) (server : List ServerAssignment) : List (ExperimentId × Variant) :=
  server.filterMap (entryIn rules)

theorem knownVariants_eq (rules : RuleSet) (server : List ServerAssignment) :
    knownVariants rules server = knownIn rules.all server := rfl

theorem names_of_variantIn {option : VariantOption} (h : variantIn rules assigned = some option) :
    Names rules assigned option.toVariant := by
  have hmem := List.mem_of_find?_eq_some h
  have hid := List.find?_some h
  obtain ⟨rule, hrule, hoption⟩ := List.mem_flatMap.mp hmem
  obtain ⟨hrule, hexperiment⟩ := List.mem_filter.mp hrule
  exact ⟨rule, hrule, eq_of_beq hexperiment, option, hoption, eq_of_beq hid, rfl⟩

theorem variantIn_isSome (h : Names rules assigned variant) :
    (variantIn rules assigned).isSome := by
  obtain ⟨rule, hrule, hexperiment, option, hoption, hid, -⟩ := h
  refine List.find?_isSome.mpr ⟨option, List.mem_flatMap.mpr ⟨rule, ?_, hoption⟩, ?_⟩
  · exact List.mem_filter.mpr ⟨hrule, beq_iff_eq.mpr hexperiment⟩
  · exact beq_iff_eq.mpr hid

/-- **What is found is what is named**, if no assignment names two variants. -/
theorem entryIn_eq_some_iff (hrules : Unambiguous rules) {entry : ExperimentId × Variant} :
    entryIn rules assigned = some entry ↔
      assigned.experimentId = entry.1 ∧ Names rules assigned entry.2 := by
  rw [entryIn, Option.map_eq_some_iff]
  constructor
  · rintro ⟨option, hoption, rfl⟩
    exact ⟨rfl, names_of_variantIn hoption⟩
  · rintro ⟨hexperiment, hnames⟩
    obtain ⟨option, hoption⟩ := Option.isSome_iff_exists.mp (variantIn_isSome hnames)
    have hvariant := hrules _ _ _ (names_of_variantIn hoption) hnames
    exact ⟨option, hoption, Prod.ext hexperiment hvariant⟩

theorem known_iff_entryIn : Known rules assigned ↔ (entryIn rules assigned).isSome := by
  rw [entryIn, Option.isSome_map]
  constructor
  · rintro ⟨variant, hnames⟩
    exact variantIn_isSome hnames
  · intro h
    obtain ⟨option, hoption⟩ := Option.isSome_iff_exists.mp h
    exact ⟨option.toVariant, names_of_variantIn hoption⟩

instance : DecidablePred (Known rules) := fun _ => decidable_of_iff _ known_iff_entryIn.symm

theorem Names.perm {order : List Rule} (h : order.Perm rules) :
    Names order assigned variant ↔ Names rules assigned variant := by
  simp only [Names, h.mem_iff]

/-- **The order of the rules does not matter.** -/
theorem knownIn_perm (hrules : Unambiguous rules) {order : List Rule} (h : order.Perm rules)
    (server : List ServerAssignment) : knownIn order server = knownIn rules server := by
  have horder : Unambiguous order := fun assigned variant other hvariant hother =>
    hrules assigned variant other ((Names.perm h).mp hvariant) ((Names.perm h).mp hother)
  refine congrArg (server.filterMap ·) (funext fun assigned => Option.ext fun entry => ?_)
  rw [entryIn_eq_some_iff horder, entryIn_eq_some_iff hrules, Names.perm h]

theorem length_knownIn (rules : List Rule) (server : List ServerAssignment) :
    (knownIn rules server).length = server.countP (Known rules ·) := by
  rw [knownIn, List.length_filterMap_eq_countP]
  refine List.countP_congr fun assigned _ => ?_
  rw [decide_eq_true_iff]
  exact known_iff_entryIn.symm

/-- An experiment is among them if one of its assignments is known. -/
theorem mem_knownIn_keys {experimentId : ExperimentId} :
    experimentId ∈ (knownIn rules server).map Prod.fst ↔
      ∃ assigned ∈ server, assigned.experimentId = experimentId ∧ Known rules assigned := by
  rw [List.mem_map]
  constructor
  · rintro ⟨entry, hentry, rfl⟩
    obtain ⟨assigned, hassigned, hfound⟩ := List.mem_filterMap.mp hentry
    have hknown : Known rules assigned := known_iff_entryIn.mpr (hfound ▸ rfl)
    obtain ⟨option, -, hoption⟩ := Option.map_eq_some_iff.mp hfound
    exact ⟨assigned, hassigned, congrArg Prod.fst hoption, hknown⟩
  · rintro ⟨assigned, hassigned, rfl, hknown⟩
    obtain ⟨entry, hentry⟩ := Option.isSome_iff_exists.mp (known_iff_entryIn.mp hknown)
    obtain ⟨option, -, hoption⟩ := Option.map_eq_some_iff.mp hentry
    exact ⟨entry, List.mem_filterMap.mpr ⟨assigned, hassigned, hentry⟩,
      (congrArg Prod.fst hoption).symm⟩

/-! ## Merging -/

/-- **What is confirmed after the assignments of the server.** -/
structure Merges (rules : List Rule) (server : List ServerAssignment)
    (before after : Dict Variant) : Prop where
  /-- The last assignment that names a variant of an experiment counts. -/
  last : ∀ earlier assigned later variant, server = earlier ++ assigned :: later →
    Names rules assigned variant →
    (∀ other ∈ later, other.experimentId = assigned.experimentId → ¬Known rules other) →
    after.find? assigned.experimentId = some variant
  /-- Experiments of which no variant is named stay as they are. -/
  others : ∀ experimentId,
    (∀ assigned ∈ server, assigned.experimentId = experimentId → ¬Known rules assigned) →
    after.find? experimentId = before.find? experimentId

theorem merges_insertAll (hrules : Unambiguous rules) (server : List ServerAssignment)
    (before : Dict Variant) :
    Merges rules server before (before.insertAll (knownIn rules server)) where
  last := by
    rintro earlier assigned later variant rfl hnames hlater
    have hentry : entryIn rules assigned = some (assigned.experimentId, variant) :=
      (entryIn_eq_some_iff hrules).mpr ⟨rfl, hnames⟩
    have hknown : knownIn rules (earlier ++ assigned :: later) =
        knownIn rules earlier ++ (assigned.experimentId, variant) :: knownIn rules later := by
      rw [knownIn, List.filterMap_append, List.filterMap_cons_some hentry]
      rfl
    -- Nothing after it is for the same experiment, so what is inserted here is not replaced.
    have hrest : assigned.experimentId ∉ (knownIn rules later).map Prod.fst := by
      rw [mem_knownIn_keys]
      rintro ⟨other, hother, hexperiment, hotherKnown⟩
      exact hlater other hother hexperiment hotherKnown
    rw [hknown, Dict.insertAll, List.foldl_append, List.foldl_cons]
    exact (Dict.find?_insertAll_of_not_mem hrest _).trans (Dict.find?_insert_self _ _ _)
  others := by
    intro experimentId hnone
    refine Dict.find?_insertAll_of_not_mem ?_ before
    rw [mem_knownIn_keys]
    rintro ⟨assigned, hassigned, hexperiment, hknown⟩
    exact hnone assigned hassigned hexperiment hknown

/-! ## Adopting -/

/-- **Memory and store both hold some assignments.** -/
structure Holds (cache : AssignmentCache) (assignments : Assignments) : Prop where
  memory : cache.loaded = some assignments
  seed : Key.seed.stored cache.store.documents = .ok (some assignments.seed)
  confirmed : confirmedIn cache.store.documents = .ok assignments.confirmed

theorem Coherent.holds (hc : Coherent c) {assignments : Assignments}
    (h : c.loaded = some assignments) : Holds c assignments :=
  ⟨h, (hc assignments h).1, (hc assignments h).2⟩

/-- Some assignments with the known ones of the server over those that are confirmed. -/
def merged (before : Assignments) (rules : List Rule) (server : List ServerAssignment) :
    Assignments :=
  { before with confirmed := before.confirmed.insertAll (knownIn rules server) }

/-- **Once assignments are loaded**, to adopt others is to commit the merged ones. -/
theorem outcome_adopt_of_load {rules : RuleSet} {before : Assignments}
    (hload : load.outcome c = (.ok before, d)) :
    (adopt server rules).outcome c =
      (commit (merged before rules.all server) >>= fun _ =>
        pure (knownIn rules.all server).length :
        Attempt AssignmentCache PersistenceFault ℕ).outcome d :=
  outcome_bind_ok hload

/-- To adopt the same assignments again changes nothing, whatever comes of it. -/
theorem adopt_again {rules : RuleSet} {before : Assignments} {r : Except PersistenceFault ℕ}
    {c₁ e : AssignmentCache}
    (hcommit : (commit (merged before rules.all server)).outcome c₁ = (.ok (), d))
    (h : (adopt server rules).outcome d = (r, e)) :
    e.loaded = d.loaded ∧ e.store.documents = d.store.documents ∧
      ∀ n, r = .ok n → n = (knownIn rules.all server).length := by
  obtain ⟨hloaded, hdocuments⟩ := commit_ok_spec hcommit
  have hsame : merged (merged before rules.all server) rules.all server =
      merged before rules.all server :=
    congrArg (Assignments.mk before.seed) (Dict.insertAll_insertAll _ _)
  rw [outcome_adopt_of_load (load_of_loaded hloaded), hsame] at h
  -- The document is the one that is stored, so it makes no difference whether writing it fails.
  rcases hagain : (commit (merged before rules.all server)).outcome d with ⟨fault | ⟨⟩, d₁⟩
  · rw [outcome_bind_error hagain] at h
    cases h
    obtain ⟨hkept, hstored⟩ := commit_error_spec hagain
    exact ⟨hkept, hstored, nofun⟩
  · rw [outcome_bind_ok hagain] at h
    cases h
    obtain ⟨hkept, hstored⟩ := commit_ok_spec hagain
    refine ⟨hkept.trans hloaded.symm, ?_, fun n hn => (Except.ok.inj hn).symm⟩
    rw [hstored]
    refine Dict.insert_eq_self ?_
    rw [hdocuments]
    exact Dict.find?_insert_self _ _ _

/-- **Adopting merges, in memory and store alike, or changes nothing**, whatever was asked
before and whichever accesses to the store failed. The number that is returned counts the
assignments that name a variant; to adopt the same ones again changes nothing. -/
theorem adopt_merges (store : Store) (seeds : Tape Seed) (asked : List CacheRequest)
    (server : List ServerAssignment) (rules : RuleSet) (hrules : Unambiguous rules.all) :
    let c := after asked (ofStore store seeds)
    (∀ order : List Rule, order.Perm rules.all →
      knownIn order server = knownVariants rules server) ∧
    (∀ fault d, load.outcome c = (.error fault, d) →
      (adopt server rules).outcome c = (.error fault, d)) ∧
    ∀ before d, load.outcome c = (.ok before, d) →
      (confirmedIn c.store.documents = .ok before.confirmed ∧
        ∀ seed, Key.seed.stored c.store.documents = .ok (some seed) → before.seed = seed) ∧
      (∀ fault e, (adopt server rules).outcome c = (.error fault, e) →
        e.loaded = d.loaded ∧ e.store.documents = d.store.documents) ∧
      ∀ n e, (adopt server rules).outcome c = (.ok n, e) →
        n = server.countP (Known rules.all ·) ∧
        (∃ confirmed, Holds e ⟨before.seed, confirmed⟩ ∧
          Merges rules.all server before.confirmed confirmed) ∧
        ∀ r f, (adopt server rules).outcome e = (r, f) →
          f.loaded = e.loaded ∧ f.store.documents = e.store.documents ∧
            ∀ m, r = .ok m → m = n := by
  intro c
  have hc : Coherent c := (coherent_ofStore store seeds).after asked
  refine ⟨fun order horder => ?_, fun fault d hload => outcome_bind_error hload,
    fun before d hload => ?_⟩
  · rw [knownVariants_eq]
    exact knownIn_perm hrules horder server
  obtain ⟨hd, -, hloaded, hconfirmed⟩ := load_ok_spec hc hload
  rw [outcome_adopt_of_load hload]
  refine ⟨⟨hconfirmed, fun seed hseed => load_keeps_seed hc hseed hload⟩, ?_, ?_⟩
  · intro fault e h
    rcases hcommit : (commit (merged before rules.all server)).outcome d with ⟨fault | ⟨⟩, d₁⟩
    · rw [outcome_bind_error hcommit] at h
      cases h
      exact commit_error_spec hcommit
    · rw [outcome_bind_ok hcommit] at h
      cases h
  · intro n e h
    obtain ⟨⟨⟩, d₁, hcommit, h⟩ := outcome_bind_eq_ok h
    cases h
    obtain ⟨he, -, -⟩ := commit_spec hd hloaded hcommit rfl
    refine ⟨length_knownIn _ _, ⟨_, he.holds (commit_ok_spec hcommit).1,
      merges_insertAll hrules server before.confirmed⟩, fun r f h => adopt_again hcommit h⟩

/-- An experiment with the variants `a` and `b`. -/
def springRules : RuleSet :=
  ⟨1, Dict.ofList [("start", [Rule.unconditional "spring" "group"
    [.treatment "a" 50 "pw-a", .treatment "b" 50 "pw-b"]])]⟩

theorem unambiguous_springRules : Unambiguous springRules.all := by
  have hall : springRules.all = [Rule.unconditional "spring" "group"
      [.treatment "a" 50 "pw-a", .treatment "b" 50 "pw-b"]] := rfl
  rintro assigned _ _ ⟨rule, hrule, -, option, hoption, hid, rfl⟩
    ⟨other, hother, -, found, hfound, hid', rfl⟩
  rw [hall, List.mem_singleton] at hrule hother
  subst hrule
  subst hother
  have hsame : option.id = found.id := hid.trans hid'.symm
  rw [Rule.unconditional, List.mem_cons, List.mem_singleton] at hoption hfound
  rcases hoption with rfl | rfl <;> rcases hfound with rfl | rfl
  · rfl
  · exact absurd hsame (by decide)
  · exact absurd hsame (by decide)
  · rfl

/-- Of two assignments of one experiment the later is taken over; unknown ones are skipped, and
what was confirmed elsewhere stays. -/
theorem adopted_later_of_two :
    let holdout : Variant := ⟨"out", .holdout, none⟩
    let server : List ServerAssignment :=
      [⟨"spring", "b"⟩, ⟨"autumn", "b"⟩, ⟨"spring", "a"⟩, ⟨"spring", "gone"⟩]
    let c := after [.confirm "summer" holdout]
      (ofStore (.ofDocuments ∅) (Tape.const default))
    ∃ e confirmed, (adopt server springRules).outcome c = (.ok 2, e) ∧
      Holds e ⟨default, confirmed⟩ ∧
      confirmed.find? "spring" = some ⟨"a", .treatment, some "pw-a"⟩ ∧
      confirmed.find? "summer" = some holdout := by
  intro holdout server c
  have hload : load.outcome c = (.ok ⟨default, Dict.empty.insert "summer" holdout⟩, c) :=
    load_of_loaded rfl
  have hadopt : ((adopt server springRules).outcome c).1 = .ok 2 := rfl
  obtain ⟨-, -, hmerges⟩ := adopt_merges (.ofDocuments ∅) (Tape.const default)
    [.confirm "summer" holdout] server springRules unambiguous_springRules
  obtain ⟨-, -, hok⟩ := hmerges _ _ hload
  obtain ⟨-, ⟨confirmed, hholds, hconfirmed⟩, -⟩ := hok _ _ (outcome_eq_of_result hadopt)
  refine ⟨_, confirmed, outcome_eq_of_result hadopt, hholds, ?_, ?_⟩
  · refine hconfirmed.last [⟨"spring", "b"⟩, ⟨"autumn", "b"⟩] ⟨"spring", "a"⟩ [⟨"spring", "gone"⟩]
      _ rfl ?_ ?_
    · exact ⟨_, List.mem_singleton_self _, rfl, _, List.mem_cons_self, rfl, rfl⟩
    · intro other hother _
      rw [List.mem_singleton.mp hother]
      decide
  · have hnone : ∀ assigned ∈ server, assigned.experimentId ≠ "summer" := by decide
    exact hconfirmed.others "summer" fun assigned hassigned hexperiment =>
      absurd hexperiment (hnone assigned hassigned)

end Placement.AssignmentCache
