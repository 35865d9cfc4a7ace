import Placement.Proofs.Engine.Reachable
/-! # Identifying again after a failure

A call to identify that fails may be repeated, with or without a new start of the engine
in between.  Failed calls keep the aim (`Attempted.aim_eq`), so **a call that does its
steps stores what a single call without failures would have stored**.  The exception is a
call that finds the user on record: it succeeds at once and leaves what the failed calls
left.  `identify_retried` says exactly when that is enough.
-/
namespace Placement.Engine
open Attempt Store
variable {d e start : Engine} {userId : String} {restarted : Bool}

/-- The engine over a store that does not fail. -/
def calm (engine : Engine) : Engine := setStore { engine.store with faults := .none } engine

/-- **Failed calls to identify**, with new starts in between; the flag tells whether there
were any. -/
inductive Attempted (userId : String) (start : Engine) : Bool → Engine → Prop
  | nothing : Attempted userId start false start
  | failed {restarted : Bool} {d e : Engine} {fault : PersistenceFault} :
      Attempted userId start restarted e → (identify userId).outcome e = (.error fault, d) →
      Attempted userId start restarted d
  | reopened {restarted : Bool} {e : Engine} :
      Attempted userId start restarted e → Attempted userId start true e.reopen

/-- What is stored is about the user: name, seed and attribute. -/
def IsAbout (userId : String) (p : Persisted) : Prop :=
  p.id = .ok (some userId) ∧ p.seed = .ok (some (Seed.ofUserId userId)) ∧
    ∃ attributes, p.attributes = .ok attributes ∧
      Dict.find? attributes appUserIdAttribute = some (.string userId)

theorem not_hides_reopen (e : Engine) : ¬ Hides userId e.reopen := by
  rintro ⟨hnobody, name, hstored, -⟩
  rw [currentId_of_user_eq_none rfl, hstored] at hnobody
  cases hnobody

/-- **A new start keeps the aim**, unless it uncovers another name. -/
theorem aim_reopen (he : Consistent e) (hhides : ¬ Hides userId e) :
    aim userId e.reopen = aim userId e := by
  have hstored : e.reopen.currentId = e.persisted.id := currentId_of_user_eq_none rfl
  cases huser : e.user with
  | none => exact aim_congr rfl (hstored.trans (currentId_of_user_eq_none huser).symm)
  | some user =>
      have hcurrent := currentId_of_user_eq_some huser
      cases hid : user.id with
      | some name =>
          refine aim_congr rfl (hstored.trans ((he.id user name huser hid).trans ?_))
          rw [hcurrent, hid]
      | none =>
          rw [hid] at hcurrent
          rw [aim_of_nobody hcurrent, aim, hstored]
          rcases hname : e.persisted.id with fault | (_ | name)
          · rfl
          · rfl
          · by_cases hself : name = userId
            · exact if_pos hself
            · exact absurd ⟨hcurrent, name, hname, hself⟩ hhides

/-- **Failed calls keep the aim.** -/
theorem Attempted.spec (h : Attempted userId start restarted e) (hstart : Consistent start) :
    Consistent e ∧ e.seedFromUserId = start.seedFromUserId ∧
      (Hides userId e → Hides userId start) ∧
      ((restarted = true → ¬ Hides userId start) → aim userId e = aim userId start) := by
  induction h with
  | nothing => exact ⟨hstart, rfl, id, fun _ => rfl⟩
  | failed _ hcall ih =>
      obtain ⟨he, hflag, hhides, haim⟩ := ih
      obtain ⟨hd, hflag', haim', hhides'⟩ := identify_spec he hcall
      exact ⟨hd, hflag'.trans hflag, fun h => hhides (hhides' h),
        fun h => haim'.trans (haim h)⟩
  | reopened _ ih =>
      obtain ⟨he, hflag, hhides, haim⟩ := ih
      refine ⟨consistent_reopen _, hflag, fun h => absurd h (not_hides_reopen _), ?_⟩
      intro hfirst
      have hopen := hfirst rfl
      rw [aim_reopen he fun h => hopen (hhides h), haim fun _ => hopen]

theorem consistent_calm (he : Consistent e) : Consistent e.calm :=
  he.congr ⟨rfl, rfl, rfl⟩ rfl

/-- Where a call does its steps, what is stored afterwards is about the user. -/
theorem isAbout_of_identify (he : Consistent e) (hset : e.seedFromUserId = true)
    (hother : e.currentId ≠ .ok (some userId))
    (h : (identify userId).outcome e = (.ok (), d)) :
    d.persisted = aim userId e ∧ IsAbout userId d.persisted := by
  obtain ⟨-, -, -, hends⟩ := identify_spec he h
  obtain ⟨haim, attributes, hattributes⟩ := hends hother hset
  have hnamed : ∃ p : Persisted, aim userId e = p.named userId := by
    rw [aim]
    split
    · split <;> exact ⟨_, rfl⟩
    · exact ⟨_, rfl⟩
  obtain ⟨p, hp⟩ := hnamed
  refine ⟨haim, ?_, ?_, _, hattributes, Dict.find?_insert_self _ _ _⟩
  · rw [haim, hp]
    rfl
  · rw [haim, hp]
    rfl

/-- What is stored of a user on record is what is aimed at, once it is about the user. -/
theorem aim_of_isAbout (hself : e.currentId = .ok (some userId))
    (habout : IsAbout userId e.persisted) : aim userId e = e.persisted := by
  obtain ⟨hid, hseed, attributes, hattributes, hfind⟩ := habout
  rw [aim_of_self hself, Persisted.named, hattributes]
  refine Persisted.ext hid.symm hseed.symm ?_ rfl
  rw [hattributes]
  exact congrArg Except.ok (Dict.insert_eq_self hfind)

/-- **Where failed calls and a last one lead.**  After any failures, with or without new
starts, what the last call leaves is what one call without failures would have left, and
is about the user, **exactly if** the failed calls kept the aim, and did not put the user on
record while something was missing still.  They keep the aim unless a new start uncovers
another name. -/
theorem identify_retried {reached : Engine} (hreachable : Reachable start)
    (hset : start.seedFromUserId = true) (hother : start.currentId ≠ .ok (some userId))
    (hattempted : Attempted userId start restarted e)
    (hlast : (identify userId).outcome e = (.ok (), d))
    (hcalm : (identify userId).outcome start.calm = (.ok (), reached)) :
    (d.persisted = reached.persisted ∧ IsAbout userId d.persisted ↔
      aim userId e = aim userId start ∧
        (e.currentId = .ok (some userId) → IsAbout userId e.persisted)) ∧
    ((restarted = true → ¬ Hides userId start) → aim userId e = aim userId start) := by
  have hstart := hreachable.consistent
  obtain ⟨he, hflag, -, haim⟩ := hattempted.spec hstart
  have hreached : reached.persisted = aim userId start :=
    (isAbout_of_identify (consistent_calm hstart) hset hother hcalm).1
  refine ⟨?_, haim⟩
  -- The last call returns at once if the user is on record, and does all its steps if not.
  by_cases hself : e.currentId = .ok (some userId)
  · obtain ⟨-, -, hsame, -⟩ := identify_spec he hlast
    rw [hsame hself, hreached]
    constructor
    · rintro ⟨hequal, habout⟩
      exact ⟨(aim_of_isAbout hself habout).trans hequal, fun _ => habout⟩
    · rintro ⟨haim', habout⟩
      exact ⟨(aim_of_isAbout hself (habout hself)).symm.trans haim', habout hself⟩
  · obtain ⟨haim', habout⟩ := isAbout_of_identify he (hflag.trans hset) hself hlast
    rw [haim', hreached] at *
    constructor
    · rintro ⟨hequal, -⟩
      exact ⟨hequal, fun hon => absurd hon hself⟩
    · rintro ⟨hequal, -⟩
      exact ⟨hequal, haim' ▸ habout⟩

/-- Where the seed of the user is drawn anyway, a first call only has to record the user. -/
theorem outcome_identify_of_seed {attributes : Attributes} {confirmed : Dict Variant}
    {cache : AssignmentCache} (hload : currentUser.outcome start = (.ok ⟨attributes, none⟩, e))
    (hwrite : (onStore (Key.appUserId.write userId)).outcome e = (.ok (), d))
    (hset : d.seedFromUserId = true)
    (hseed : AssignmentCache.load.outcome d.cache =
      (.ok ⟨Seed.ofUserId userId, confirmed⟩, cache)) :
    (identify userId).outcome start = (recordUser userId).outcome { d with cache } := by
  have huse : (AssignmentCache.useSeed (Seed.ofUserId userId)).outcome d.cache =
      (.ok (), cache) := by
    rw [AssignmentCache.useSeed, outcome_bind_ok hseed, if_pos rfl, outcome_pure]
  have hstep : (onCache (AssignmentCache.useSeed (Seed.ofUserId userId))).outcome d =
      (.ok (), { d with cache }) := by
    rw [onCache, outcome_on, huse]
  rw [identify_eq, outcome_bind_ok hload]
  dsimp only [Option.isSome]
  rw [if_neg (Option.some_ne_none userId).symm, if_neg Bool.false_ne_true, enroll,
    outcome_bind_ok hwrite, outcome_bind, outcome_get]
  dsimp only
  rw [if_pos hset, outcome_bind_ok hstep]

/-- An engine over an empty store that cannot write attributes. -/
def interrupted : Engine where
  cache := .ofStore
    ⟨∅, Tape.const fun access =>
      if access = .write Key.userAttributes.name then some "full" else none, []⟩
    (Tape.const (Seed.ofUserId "ada"))
  history := .empty
  user := none
  device := ⟨Tape.const (some ∅), 0⟩
  reporter := ⟨[], false⟩
  seedFromUserId := true

theorem outcome_identify_interrupted :
    (((identify "ada").outcome interrupted).1,
      ((identify "ada").outcome interrupted).2.user.map User.id,
      ((identify "ada").outcome interrupted).2.persisted.attributes) =
    (.error (.write "store.userAttributes" "full"), some (some "ada"), .ok ∅) := by
  rw [outcome_identify_of_seed rfl rfl rfl rfl]
  rfl

theorem outcome_identify_calm : ((identify "ada").outcome interrupted.calm).1 = .ok () := by
  rw [outcome_identify_of_seed rfl rfl rfl rfl]
  rfl

/-- The second call finds the user on record, and the attribute is never stored. -/
theorem interrupted_lacks_attribute :
    let e := ((identify "ada").outcome interrupted).2
    let d := ((identify "ada").outcome e).2
    ((identify "ada").outcome e).1 = .ok () ∧
      ¬ (d.persisted = ((identify "ada").outcome interrupted.calm).2.persisted ∧
        IsAbout "ada" d.persisted) := by
  intro e d
  obtain ⟨hfault, hrest⟩ := Prod.mk.inj outcome_identify_interrupted
  obtain ⟨huser, hattributes⟩ := Prod.mk.inj hrest
  obtain ⟨user, hloaded, hid⟩ := Option.map_eq_some_iff.mp huser
  have hself : e.currentId = .ok (some "ada") :=
    (currentId_of_user_eq_some hloaded).trans (congrArg Except.ok hid)
  have hlast : (identify "ada").outcome e = (.ok (), e) := by
    rw [identify_eq, outcome_bind_ok (outcome_currentUser_of_loaded hloaded), if_pos hid]
    rfl
  have hattempted : Attempted "ada" interrupted false e :=
    .failed .nothing (outcome_eq_of_result hfault)
  refine ⟨congrArg Prod.fst hlast, ?_⟩
  intro hclaimed
  obtain ⟨-, habout⟩ := (identify_retried (.opened interrupted) rfl nofun hattempted
    (outcome_eq_of_result (congrArg Prod.fst hlast))
    (outcome_eq_of_result outcome_identify_calm)).1.mp hclaimed
  obtain ⟨-, -, attributes, hstored, hfind⟩ := habout hself
  have hempty : attributes = ∅ := Except.ok.inj (hstored.symm.trans hattributes)
  subst hempty
  cases hfind

end Placement.Engine
