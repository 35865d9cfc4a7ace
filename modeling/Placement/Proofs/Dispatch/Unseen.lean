import Mathlib.Data.List.Induction
import Placement.Proofs.Dispatch.Calls
import Placement.Proofs.Dispatch.Invariant
import Placement.Proofs.Engine.Likeness
/-! # Looks go unseen

To preview an event and to ask for the paywalls to load ahead are **looks**.  Leave any of
them out of a run of calls: all other calls have the same answers, the same fires are
reported, and history and store end up the same (`answers_without_looks`).

Store and history do not fail, and the store holds a seed, since a first look would draw one.
Each call finds the device in a state of its own, which is the same whether or not there was a
look before (`Visit.device`); during a call the device may show something else each time that it
is asked.  Nor may a look that is left out bring the worker down, as it does where the device
breaks down: the calls after it are then in vain (`look_that_shows`).

The proof runs the dispatcher beside the one that gets no looks.  What the looks load and
ask for is all in which their engines differ (`Mirrors`).  It does show in the assignments in
memory, but no call tells of these.
-/
namespace Placement
open Attempt Engine

namespace Engine
variable {e d : Engine}

theorem steady_reopen {engine : Engine} (hstore : engine.store.faults = .none)
    (hhistory : engine.history.faults = .none)
    (hseed : (engine.store.documents.find? Key.seed.name).isSome = true) :
    Steady engine.reopen :=
  ⟨⟨hstore, hseed⟩, AssignmentCache.coherent_of_loaded_eq_none rfl, hhistory⟩

/-- Forgotten, it makes no difference any more. -/
theorem Alike.reopen (h : Alike e d) : Alike e.reopen d.reopen := by
  have hstore : d.store = e.store := h.cache.store
  have hcache : d.reopen.cache = e.reopen.cache := h.cache.reopen_eq
  refine ⟨steady_reopen h.left.cache.faults h.left.history h.left.cache.seed,
    steady_reopen h.right.cache.faults h.right.history h.right.cache.seed, ?_, ?_, h.events,
    h.device, h.reporter, h.seedFromUserId⟩
  · rw [hcache]
    exact .refl _
  · exact knownUser_congr rfl (congrArg (Dict.find? ·.documents _) hstore)
      (congrArg (Dict.find? ·.documents _) hstore)

theorem Alike.within (h : Alike e d) (answers : Tape (Option Attributes)) (reporter : Bool) :
    Alike (e.within answers reporter) (d.within answers reporter) := by
  refine ⟨h.left.congr rfl rfl, h.right.congr rfl rfl, h.cache, h.user, h.events, rfl, ?_,
    h.seedFromUserId⟩
  exact congrArg (fun r : Reporter => { r with broken := reporter }) h.reporter

end Engine

/-- The call only looks. -/
def Call.looks : Call → Bool
  | .command asked => asked.looks
  | _ => false

namespace Dispatcher
variable {d e : Dispatcher}

/-! ## Side by side -/

theorem unnoticed_alike : Unnoticed Alike where
  run := Job.blindTo_run
  within := Alike.within
  reopen := Alike.reopen

/-- The device goes on to show something else. -/
def facing (answers : Tape (Option Attributes)) (d : Dispatcher) : Dispatcher :=
  { d with engine := d.engine.facing answers }

/-- **A dispatcher that got looks, and one that did not.** -/
structure Mirrors (d e : Dispatcher) : Prop where
  left : Ready d
  right : Ready e
  engine : AlikeFacing d.engine e.engine
  rules : e.rules = d.rules
  worker : e.worker = d.worker

namespace Mirrors

theorem refl (hready : Ready d) (hsteady : Steady d.engine) : Mirrors d d :=
  ⟨hready, hready, .refl hsteady, rfl, rfl⟩

theorem paired (h : Mirrors d e) (answers : Tape (Option Attributes)) :
    Paired Alike (d.facing answers) (e.facing answers) :=
  ⟨h.left.congr _ _, h.right.congr _ _, h.engine answers, h.rules, h.worker⟩

theorem of_paired (h : Paired Alike d e) : Mirrors d e :=
  ⟨h.left, h.right, h.engine.alikeFacing, h.rules, h.worker⟩

theorem facing_left (h : Mirrors d e) (answers : Tape (Option Attributes)) :
    Mirrors (d.facing answers) e :=
  ⟨h.left.congr _ _, h.right, h.engine, h.rules, h.worker⟩

/-- A step that only the first dispatcher does, and that leaves an engine like the one
before. -/
theorem attend_left (h : Mirrors d e) {step : Attempt Engine Crash Reply}
    (hkeeps : KeepsLikeness step)
    (hspared : d.isRunning = true → (d.attend step).2.isRunning = true) :
    Mirrors (d.attend step).2 e := by
  have hd := h.left.attend step
  rcases h.left.worker with hidle | hended
  · rcases hrun : step.outcome d.engine with ⟨broke | reply, next⟩
    · -- The step would bring the worker down.
      rw [attend_error hidle hrun] at hspared
      exact absurd (hspared (by rw [isRunning, hidle])) nofun
    · have halike := hkeeps d.engine h.engine.left
      rw [hrun] at halike
      rw [attend_ok hidle hrun] at hd ⊢
      exact ⟨hd, h.right, halike.symm.trans h.engine, h.rules, h.worker.trans hidle⟩
  · rw [attend_ended hended] at hd ⊢
    exact ⟨hd, h.right, h.engine, h.rules, h.worker⟩

/-! ## Calls -/

/-- **A call has the same answer in both**, if they face the same device. -/
theorem call (h : Mirrors d e) (answers : Tape (Option Attributes)) (call : Call) :
    ((e.facing answers).call call).1 = ((d.facing answers).call call).1 ∧
      Mirrors ((d.facing answers).call call).2 ((e.facing answers).call call).2 := by
  obtain ⟨hanswer, hpaired⟩ := (h.paired answers).call unnoticed_alike call
  exact ⟨hanswer, .of_paired hpaired⟩

/-- **A look changes nothing that the other dispatcher would have to follow.** -/
theorem look (h : Mirrors d e) {call : Call} (hlooks : call.looks = true)
    (hspared : d.isRunning = true → (d.call call).2.isRunning = true) :
    Mirrors (d.call call).2 e := by
  cases call with
  | command asked =>
      have hcall : d.call (.command asked) = _ := h.left.call_eq rfl
      rw [hcall] at hspared ⊢
      exact h.attend_left (Command.keepsLikeness_run hlooks) hspared
  | _ => cases hlooks

end Mirrors

/-! ## Runs -/

/-- A call, and what the device shows to it. -/
structure Visit where
  call : Call
  device : Tape (Option Attributes)
  /-- The call is made in any case. -/
  kept : Bool

/-- Make some calls, one after the other; the answers to those that are kept. -/
def serve : List Visit → Dispatcher → List Answer × Dispatcher
  | [], d => ([], d)
  | visit :: run, d =>
      let (answer, next) := (d.facing visit.device).call visit.call
      let (answers, last) := serve run next
      (if visit.kept then answer :: answers else answers, last)

/-- No call that is not kept brings the worker down. -/
def Spared : List Visit → Dispatcher → Prop
  | [], _ => True
  | visit :: run, d =>
      (visit.kept = false → d.isRunning = true →
        ((d.facing visit.device).call visit.call).2.isRunning = true) ∧
      Spared run ((d.facing visit.device).call visit.call).2

/-- **Whatever the run, the other dispatcher need not make the calls that are not kept.** -/
theorem Mirrors.serve (run : List Visit) (h : Mirrors d e)
    (hlooks : ∀ visit ∈ run, visit.kept = false → visit.call.looks = true)
    (hspared : Spared run d) :
    (serve (run.filter Visit.kept) e).1 = (serve run d).1 ∧
      Mirrors (serve run d).2 (serve (run.filter Visit.kept) e).2 := by
  induction run generalizing d e with
  | nil => exact ⟨rfl, h⟩
  | cons visit run ih =>
      obtain ⟨call, device, kept⟩ := visit
      obtain ⟨hfirst, hrest⟩ := hspared
      have hlooksRest : ∀ visit ∈ run, visit.kept = false → visit.call.looks = true :=
        fun visit hvisit => hlooks visit (List.mem_cons_of_mem _ hvisit)
      cases kept with
      | true =>
          obtain ⟨hanswer, hnext⟩ := h.call device call
          obtain ⟨hanswers, hlast⟩ := ih hnext hlooksRest hrest
          exact ⟨congrArg₂ List.cons hanswer hanswers, hlast⟩
      | false =>
          -- The other dispatcher stays where it is.
          have hcall := hlooks _ List.mem_cons_self rfl
          exact ih ((h.facing_left device).look hcall (hfirst rfl)) hlooksRest hrest

/-- **Looks go unseen.**  Any of them may be left out of any run, from any start over a
store and a history that do not fail, with a seed in the store, unless it brings the worker
down: all other calls have the same answers, and the fires that were reported, the history
and the stored documents are the same in the end. -/
theorem answers_without_looks (engine : Engine) (rules : RuleSet) (run : List Visit)
    (hstore : engine.store.faults = .none) (hhistory : engine.history.faults = .none)
    (hseed : (engine.store.documents.find? Key.seed.name).isSome = true)
    (hlooks : ∀ visit ∈ run, visit.kept = false → visit.call.looks = true)
    (hspared : Spared run (start engine rules)) :
    let (answers, last) := serve run (start engine rules)
    let (answers', last') := serve (run.filter Visit.kept) (start engine rules)
    answers' = answers ∧ last'.engine.reporter.fires = last.engine.reporter.fires ∧
      last'.engine.history.events = last.engine.history.events ∧
      last'.engine.store.documents = last.engine.store.documents := by
  have hstart : Mirrors (start engine rules) (start engine rules) :=
    .refl (.start engine rules) (steady_reopen hstore hhistory hseed)
  obtain ⟨hanswers, hlast⟩ := hstart.serve run hlooks hspared
  have halike := hlast.engine engine.device.answers
  exact ⟨hanswers, congrArg Reporter.fires halike.reporter, halike.events,
    congrArg Store.documents halike.cache.store⟩

/-- An engine over a store that holds nothing but a seed. -/
def seeded : Engine :=
  { welcoming false with
    cache := .ofStore (.ofDocuments (Dict.ofList [(Key.seed.name, Key.seed.encode default)]))
      (Tape.const default) }

/-- A call to a device that shows something each time. -/
def visit (call : Call) (kept : Bool) : Visit := ⟨call, Tape.const (some ∅), kept⟩

/-- A user is shown something and then forgotten, with a look before each. -/
def lookedUp : List Visit :=
  [visit (.command (.preview firstLaunch welcomeRules)) false, visit (.evaluate firstLaunch) true,
    visit (.command (.preload welcomeRules .epoch)) false, visit (.command .reset) true]

theorem answers_without_lookups :
    (let (answers, last) := serve lookedUp (start seeded welcomeRules)
    let (answers', last') := serve (lookedUp.filter Visit.kept) (start seeded welcomeRules)
    answers' = answers ∧ last'.engine.reporter.fires = last.engine.reporter.fires ∧
      last'.engine.history.events = last.engine.history.events ∧
      last'.engine.store.documents = last.engine.store.documents) ∧
    (serve lookedUp (start seeded welcomeRules)).1 =
      [.reply (.outcome (.matched welcome ⟨"gold", .treatment, some "gold"⟩)), .reply .done] := by
  have hspared : Spared lookedUp (start seeded welcomeRules) :=
    ⟨fun _ _ => rfl, nofun, fun _ _ => rfl, nofun, trivial⟩
  exact ⟨answers_without_looks seeded welcomeRules lookedUp rfl rfl rfl (by decide) hspared, rfl⟩

/-- **A look shows where it brings the worker down**: the device breaks down when a preview
asks for its attributes, and a reset that would be done is in vain. -/
theorem look_that_shows :
    ¬ ∀ (engine : Engine) (rules : RuleSet) (run : List Visit),
      engine.store.faults = .none → engine.history.faults = .none →
      (engine.store.documents.find? Key.seed.name).isSome = true →
      (∀ visit ∈ run, visit.kept = false → visit.call.looks = true) →
      (serve (run.filter Visit.kept) (start engine rules)).1 =
        (serve run (start engine rules)).1 := by
  intro h
  let preview : Visit := ⟨.command (.preview firstLaunch welcomeRules), Tape.const none, false⟩
  let reset : Visit := visit (.command .reset) true
  have hsame := h seeded welcomeRules [preview, reset] rfl rfl rfl (by decide)
  have hdone : (serve [reset] (start seeded welcomeRules)).1 = [.reply .done] := rfl
  have hvain : (serve [preview, reset] (start seeded welcomeRules)).1 =
      [.reply (.failed .workerUnavailable)] := rfl
  rw [hvain] at hsame
  cases hdone.symm.trans hsame

end Dispatcher

/-! ## With others in between -/

/-- The job only looks. -/
def Job.looks : Job → Bool
  | .single _ asked => asked.looks
  | _ => false

theorem Job.keepsLikeness_run {job : Job} (h : job.looks = true) : KeepsLikeness job.run := by
  cases job with
  | shared key event rules => cases h
  | single caller asked => exact Command.keepsLikeness_run h

namespace Traffic
variable {t : Traffic} {engine : Engine} {rules : RuleSet}

/-- **An engine that does some of the jobs that a worker did**, with the device as the worker
found it for each. -/
def replayKept (kept : Job → Bool) (engine : Engine) (done : List Completion) : Engine :=
  done.foldl
    (fun engine run =>
      if kept run.job then
        (run.job.run.outcome (engine.facing run.before.device.answers)).2
      else engine)
    engine

/-- Looks that are left out make no difference to it. -/
theorem alikeFacing_replayKept {kept : Job → Bool} (hsteady : Steady engine)
    (hreplayed : Replayed engine t)
    (hlooks : ∀ run ∈ t.done, kept run.job = false → run.job.looks = true)
    {earlier later : List Completion} (hdone : t.done = earlier ++ later) :
    AlikeFacing (replay engine (earlier.map Completion.job)) (replayKept kept engine earlier) := by
  induction earlier using List.reverseRecOn generalizing later with
  | nil => exact .refl hsteady
  | append_singleton earlier run ih =>
      have hsplit : t.done = earlier ++ run :: later := by
        rw [hdone, List.append_assoc, List.singleton_append]
      have halike := ih hsplit
      have hbefore := (hreplayed.runs _ _ _ hsplit).1
      rw [List.map_append, List.map_singleton, replay_concat, replayKept, List.foldl_append]
      show AlikeFacing _ (if kept run.job then
        (run.job.run.outcome ((replayKept kept engine earlier).facing run.before.device.answers)).2
        else replayKept kept engine earlier)
      rw [← hbefore] at halike ⊢
      cases hkept : kept run.job with
      | true =>
          have hsame : Alike run.before
              ((replayKept kept engine earlier).facing run.before.device.answers) := halike _
          rw [if_pos rfl]
          exact (run.job.blindTo_run _ _ hsame).2.alikeFacing
      | false =>
          have hmem : run ∈ t.done := hsplit ▸ List.mem_append_right _ List.mem_cons_self
          have hkeeps := Job.keepsLikeness_run (hlooks run hmem hkept)
          rw [if_neg Bool.false_ne_true]
          exact (hkeeps run.before halike.left).symm.trans halike

/-- **Callers that do not wait for one another get the replies of a worker that never did
some of the looks** before, and that finds the device in the same state. -/
theorem reply_without_looks (h : Reachable engine rules t) (hstore : engine.store.faults = .none)
    (hhistory : engine.history.faults = .none)
    (hseed : (engine.store.documents.find? Key.seed.name).isSome = true) {kept : Job → Bool}
    (hlooks : ∀ run ∈ t.done, kept run.job = false → run.job.looks = true)
    {earlier later : List Completion} {run : Completion}
    (hdone : t.done = earlier ++ run :: later) :
    (run.job.run.outcome ((replayKept kept engine.reopen earlier).facing
      run.before.device.answers)).1 = .ok run.reply := by
  have hreplayed := (sound_of_reachable h).replayed
  obtain ⟨hbefore, hreply⟩ := hreplayed.runs _ _ _ hdone
  have halike := alikeFacing_replayKept (steady_reopen hstore hhistory hseed) hreplayed hlooks hdone
  rw [← hbefore] at halike
  have hsame : Alike run.before
      ((replayKept kept engine.reopen earlier).facing run.before.device.answers) := halike _
  rw [(run.job.blindTo_run _ _ hsame).1, hreply]

end Traffic
end Placement
