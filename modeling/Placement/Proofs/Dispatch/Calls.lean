import Placement.Proofs.Dispatch.Accounts
/-! # One call after the other

The simplest use of a dispatcher: whoever calls waits for the answer, so there is never
more than one job, and nobody joins.  Then **a call is one step of the engine**, until a
step brings the worker down; from then on nothing is done, and all calls are told that the
worker does not run (`Dispatcher.attend`, `Dispatcher.Ready.call_eq`).
-/
namespace Placement

/-- The engine in other surroundings. -/
def Engine.within (engine : Engine) (answers : Tape (Option Attributes)) (reporter : Bool) :
    Engine :=
  { engine with
    device := { engine.device with answers }
    reporter := { engine.reporter with broken := reporter } }

/-- What is done with a dispatcher. -/
inductive Call
  /-- Ask for a committed evaluation under the active rules. -/
  | evaluate (event : Event)
  /-- Give a command. -/
  | command (command : Command)
  /-- Activate a configuration for the calls that come after. -/
  | activate (config : Config)
  /-- The device goes on to show something else, or nothing, and the receiver may break down
  when it is used. -/
  | surround (answers : Tape (Option Attributes)) (reporter : Bool)
  /-- Shut the worker down. -/
  | shutdown
  /-- Shut the worker down and start another one. -/
  | restart

/-- What comes back. -/
inductive Answer
  | reply (reply : Reply)
  /-- How a worker was shut down. -/
  | stopped (result : Option (Except Failure Unit))
  | nothing

namespace Call

/-- What the worker does for a call. -/
def step? (rules : RuleSet) : Call → Option (Attempt Engine Crash Reply)
  | .evaluate event => some do return .outcome (← Engine.evaluate event rules .commit)
  | .command asked => some asked.run
  | _ => none

/-- The reply to a call that is never done. -/
def unavailable : Call → Reply
  | .command asked => asked.unavailable
  | _ => .outcome (.failed Failure.workerUnavailable.kind)

end Call

namespace Dispatcher
open Attempt
variable {d : Dispatcher}

/-- **Make a call and wait for the answer.** -/
def call (d : Dispatcher) : Call → Answer × Dispatcher
  | .evaluate event =>
      let next := (d.submit event).work
      (.reply (next.outcomeFor d.nextCaller), next)
  | .command command =>
      let next := (d.ask command).work
      (.reply (next.replyFor d.nextCaller command), next)
  | .activate config => (.nothing, d.activate config)
  | .surround answers reporter =>
      (.nothing, { d with engine := d.engine.within answers reporter })
  | .shutdown => (.stopped d.shutdown.1, d.shutdown.2)
  | .restart => (.stopped d.restart.1, d.restart.2)

/-- Nobody waits, and nobody who comes was answered before. -/
structure Ready (d : Dispatcher) : Prop where
  worker : d.worker = .idle ∨ d.isRunning = false
  queue : d.queue = []
  inFlight : d.inFlight = []
  answers : ∀ entry ∈ d.answers, entry.1 < d.nextCaller

namespace Ready

theorem start (engine : Engine) (rules : RuleSet) : Ready (.start engine rules) :=
  ⟨.inl rfl, rfl, rfl, nofun⟩

/-- Neither the engine nor the rules matter. -/
theorem congr (h : Ready d) (engine : Engine) (rules : RuleSet) :
    Ready { d with engine, rules } := ⟨h.worker, h.queue, h.inFlight, h.answers⟩

theorem stop (h : Ready d) : Ready d.stop := ⟨.inr rfl, h.queue, h.inFlight, h.answers⟩

end Ready

/-- The dispatcher once the next caller has its answer, or was dropped. -/
def answering (d : Dispatcher) (engine : Engine) (worker : Activity) (answer : Option Reply) :
    Dispatcher :=
  { d with
    engine, worker
    nextCaller := d.nextCaller + 1
    answers := d.answers ++ [(d.nextCaller, answer)] }

/-- **What the worker makes of a step that one caller asks for**: its result, unless it
breaks down or did so before. -/
def attend (d : Dispatcher) (step : Attempt Engine Crash Reply) : Option Reply × Dispatcher :=
  match d.worker with
  | .idle =>
      match step.outcome d.engine with
      | (.ok reply, engine) => (some reply, d.answering engine .idle (some reply))
      | (.error _, engine) => (none, d.answering engine .crashed none)
  | worker => (none, d.answering d.engine worker none)

theorem attend_ok {step : Attempt Engine Crash Reply} {reply : Reply} {engine : Engine}
    (hidle : d.worker = .idle) (h : step.outcome d.engine = (.ok reply, engine)) :
    d.attend step = (some reply, d.answering engine .idle (some reply)) := by
  rw [attend, hidle]
  dsimp only
  rw [h]

theorem attend_error {step : Attempt Engine Crash Reply} {broke : Crash} {engine : Engine}
    (hidle : d.worker = .idle) (h : step.outcome d.engine = (.error broke, engine)) :
    d.attend step = (none, d.answering engine .crashed none) := by
  rw [attend, hidle]
  dsimp only
  rw [h]

theorem attend_ended (hended : d.isRunning = false) (step : Attempt Engine Crash Reply) :
    d.attend step = (none, d.answering d.engine d.worker none) := by
  rw [attend]
  split
  · rename_i hidle
    rw [isRunning, hidle] at hended
    cases hended
  · rfl

/-- In any case the caller hears of it. -/
theorem Ready.attend_spec (h : Ready d) (step : Attempt Engine Crash Reply) :
    ∃ engine worker, (d.attend step).2 = d.answering engine worker (d.attend step).1 ∧
      (worker = .idle ∨ (d.attend step).2.isRunning = false) := by
  rcases h.worker with hidle | hended
  · rcases hrun : step.outcome d.engine with ⟨broke | reply, engine⟩
    · rw [attend_error hidle hrun]
      exact ⟨_, _, rfl, .inr rfl⟩
    · rw [attend_ok hidle hrun]
      exact ⟨_, _, rfl, .inl rfl⟩
  · rw [attend_ended hended]
    exact ⟨_, _, rfl, .inr hended⟩

theorem Ready.attend (h : Ready d) (step : Attempt Engine Crash Reply) :
    Ready (d.attend step).2 := by
  obtain ⟨engine, worker, hnext, hworker⟩ := h.attend_spec step
  rw [hnext] at hworker ⊢
  refine ⟨hworker, h.queue, h.inFlight, ?_⟩
  intro entry hentry
  rcases List.mem_append.mp hentry with hbefore | hlast
  · exact Nat.lt_succ_of_lt (h.answers entry hbefore)
  · rw [List.mem_singleton.mp hlast]
    exact Nat.lt_succ_self _

/-- The caller finds its answer. -/
theorem Ready.answer?_attend (h : Ready d) (step : Attempt Engine Crash Reply) :
    (d.attend step).2.answer? d.nextCaller = some (d.attend step).1 := by
  obtain ⟨engine, worker, hnext, -⟩ := h.attend_spec step
  have hnone : d.answers.lookup d.nextCaller = none := by
    rw [List.lookup_eq_none_iff]
    intro entry hentry
    simpa using Nat.ne_of_gt (h.answers entry hentry)
  rw [hnext]
  generalize (d.attend step).1 = answer
  rw [answer?, answering, List.lookup_append, hnone, Option.none_or, List.lookup_cons,
    beq_self_eq_true]

/-! ## A caller alone with the worker -/

/-- A worker that breaks down drops the caller of its job. -/
theorem finish_of_error {job : Job} {broke : Crash} {engine : Engine}
    (hbusy : d.worker = .busy job) (hrun : job.run.outcome d.engine = (.error broke, engine)) :
    d.finish = { d with engine }.crash job := by
  have hresult : job.run d.engine = (.error broke, engine) := hrun
  rw [finish, hbusy]
  dsimp only
  rw [hresult]

theorem Ready.work_idle (h : Ready d) (hidle : d.worker = .idle) (job : Job) (table : Waitlist)
    (hcallers : job.callers table = [d.nextCaller]) (hleave : job.leave table = [])
    (hdropped : job.caller?.toList ++ table.callers = [d.nextCaller]) :
    { d with queue := [job], inFlight := table, nextCaller := d.nextCaller + 1 }.work =
      (d.attend job.run).2 := by
  let busy : Dispatcher :=
    { d with worker := .busy job, queue := [], inFlight := table, nextCaller := d.nextCaller + 1 }
  -- The worker takes the job and does it, and there is no other one.
  have hwork : { d with
      queue := [job], inFlight := table, nextCaller := d.nextCaller + 1 }.work =
        busy.finish.clear := by
    rcases d with ⟨engine, rules, worker, queue, inFlight, nextCaller, answers⟩
    cases hidle
    rfl
  rw [hwork]
  rcases hrun : job.run.outcome d.engine with ⟨broke | reply, next⟩
  · have hdrop : [job].filterMap Job.caller? = job.caller?.toList := by
      cases job <;> rfl
    rw [attend_error hidle hrun, finish_of_error (d := busy) rfl hrun, clear_of_ended rfl]
    dsimp only [Dispatcher.crash, drop, answering, busy]
    rw [hdrop, List.append_assoc, ← List.map_append, hdropped, h.queue, h.inFlight]
    rfl
  · rw [attend_ok hidle hrun, finish_of_busy (d := busy) rfl hrun]
    dsimp only [clear, isRunning, Dispatcher.reply, answering, busy]
    rw [hcallers, hleave, h.queue, h.inFlight]
    rfl

/-- **To ask for an evaluation and wait is one step**; nobody is there to join. -/
theorem Ready.work_submit (h : Ready d) (event : Event) :
    (d.submit event).work = (d.attend do
      return .outcome (← Engine.evaluate event d.rules .commit)).2 := by
  let key := RequestKey.ofEvent event d.rules.generation
  rcases h.worker with hidle | hended
  · have hsubmit : d.submit event = { d with
        queue := [.shared key event d.rules], inFlight := [(key, [d.nextCaller])]
        nextCaller := d.nextCaller + 1 } := by
      rcases d with ⟨engine, rules, worker, queue, inFlight, nextCaller, answers⟩
      cases hidle
      cases h.queue
      cases h.inFlight
      rfl
    rw [hsubmit]
    exact h.work_idle hidle _ _ (by simp [Job.callers, Waitlist.waiting])
      (by simp [Job.leave, Waitlist.remove]) rfl
  · rw [attend_ended hended]
    rcases d with ⟨engine, rules, worker, queue, inFlight, nextCaller, answers⟩
    cases h.queue
    cases h.inFlight
    cases worker with
    | idle => cases hended
    | busy job => cases hended
    | _ =>
        simp [submit, enter, enterUnder, send, isRunning, withdraw, drop, work, workFor, clear,
          answering, Waitlist.contains, Waitlist.join, Waitlist.waiting, Waitlist.remove,
          Waitlist.callers]

/-- **So is to give a command and wait.** -/
theorem Ready.work_ask (h : Ready d) (command : Command) :
    (d.ask command).work = (d.attend command.run).2 := by
  rcases h.worker with hidle | hended
  · have hask : d.ask command = { d with
        queue := [.single d.nextCaller command], inFlight := []
        nextCaller := d.nextCaller + 1 } := by
      rcases d with ⟨engine, rules, worker, queue, inFlight, nextCaller, answers⟩
      cases hidle
      cases h.queue
      cases h.inFlight
      rfl
    rw [hask]
    exact h.work_idle hidle _ _ rfl rfl rfl
  · rw [attend_ended hended]
    rcases d with ⟨engine, rules, worker, queue, inFlight, nextCaller, answers⟩
    cases h.queue
    cases h.inFlight
    cases worker with
    | idle => cases hended
    | busy job => cases hended
    | _ => simp [ask, send, isRunning, drop, work, workFor, clear, answering, Waitlist.callers]

/-! ## What a call comes to -/

/-- **A call that needs the worker is one step of the engine**, whose result is the answer. -/
theorem Ready.call_eq (h : Ready d) {call : Call} {step : Attempt Engine Crash Reply}
    (hstep : call.step? d.rules = some step) :
    d.call call =
      (.reply ((d.attend step).1.getD call.unavailable), (d.attend step).2) := by
  have hanswer := h.answer?_attend step
  cases call with
  | evaluate event =>
      cases hstep
      rw [Dispatcher.call, h.work_submit, outcomeFor, hanswer]
      cases (d.attend _).1 <;> rfl
  | command asked =>
      cases hstep
      rw [Dispatcher.call, h.work_ask, replyFor, hanswer]
      cases (d.attend _).1 <;> rfl
  | _ => cases hstep

/-- How a worker without jobs is shut down. -/
def ending (d : Dispatcher) : Option (Except Failure Unit) :=
  match d.worker with
  | .stopped => none
  | .crashed => some (.error .workerCrashed)
  | _ => some (.ok ())

/-- Nobody hears of a shutdown. -/
theorem Ready.shutdown_eq (h : Ready d) : d.shutdown = (d.ending, d.stop) := by
  rcases d with ⟨engine, rules, worker, queue, inFlight, nextCaller, answers⟩
  cases h.queue
  cases h.inFlight
  cases worker <;> simp [shutdown, work, workFor, clear, isRunning, ending, drop,
    Waitlist.callers]

theorem Ready.restart_eq (h : Ready d) : d.restart = (d.ending, .start d.engine d.rules) := by
  rw [restart, h.shutdown_eq]
  rfl

/-- **A command that is done**: the worker ran, and still does. -/
theorem Ready.done_of_call (h : Ready d) {asked : Command}
    (hdone : (d.call (.command asked)).1 = .reply .done) :
    ∃ engine, asked.run.outcome d.engine = (.ok .done, engine) ∧
      (d.call (.command asked)).2 = d.answering engine .idle (some .done) := by
  have hcall : d.call (.command asked) =
      (.reply ((d.attend asked.run).1.getD asked.unavailable), (d.attend asked.run).2) :=
    h.call_eq rfl
  have hvain : asked.unavailable ≠ .done := by
    cases asked <;> nofun
  rw [hcall] at hdone ⊢
  have hreply := Answer.reply.inj hdone
  rcases h.worker with hidle | hended
  · rcases hrun : asked.run.outcome d.engine with ⟨broke | reply, engine⟩
    · rw [attend_error hidle hrun] at hreply
      exact absurd hreply hvain
    · rw [attend_ok hidle hrun] at hreply ⊢
      cases hreply
      exact ⟨engine, rfl, rfl⟩
  · rw [attend_ended hended] at hreply
    exact absurd hreply hvain

/-- Make some calls, one after the other. -/
def callAll : List Call → Dispatcher → List Answer × Dispatcher
  | [], d => ([], d)
  | call :: rest, d =>
      let (answer, next) := d.call call
      let (answers, last) := callAll rest next
      (answer :: answers, last)

/-! ## Two dispatchers side by side -/

/-- A relation between engines that no call tells apart, and that calls keep. -/
structure Unnoticed (R : Engine → Engine → Prop) : Prop where
  run : ∀ job : Job, job.run.BlindTo R
  within : ∀ {e f : Engine}, R e f → ∀ answers reporter,
    R (e.within answers reporter) (f.within answers reporter)
  reopen : ∀ {e f : Engine}, R e f → R e.reopen f.reopen

/-- **Dispatchers that differ at most in their engines**, and in whom they answered before. -/
structure Paired (R : Engine → Engine → Prop) (d e : Dispatcher) : Prop where
  left : Ready d
  right : Ready e
  engine : R d.engine e.engine
  rules : e.rules = d.rules
  worker : e.worker = d.worker

namespace Paired
variable {e : Dispatcher} {R : Engine → Engine → Prop}

theorem isRunning_eq (h : Paired R d e) : e.isRunning = d.isRunning := by
  rw [isRunning, isRunning, h.worker]

theorem ending_eq (h : Paired R d e) : e.ending = d.ending := by
  rw [ending, ending, h.worker]

/-- A step that cannot tell the engines apart. -/
theorem attend (h : Paired R d e) {step : Attempt Engine Crash Reply} (hblind : step.BlindTo R) :
    (e.attend step).1 = (d.attend step).1 ∧ Paired R (d.attend step).2 (e.attend step).2 := by
  have hd := h.left.attend step
  have he := h.right.attend step
  rcases h.left.worker with hidle | hended
  · have hidle' : e.worker = .idle := h.worker.trans hidle
    obtain ⟨hresult, hrelated⟩ := hblind _ _ h.engine
    rcases hrun : step.outcome d.engine with ⟨broke | reply, next⟩ <;>
      rcases hrun' : step.outcome e.engine with ⟨broke' | reply', next'⟩ <;>
      rw [hrun, hrun'] at hresult hrelated <;> cases hresult
    · rw [attend_error hidle hrun] at hd ⊢
      rw [attend_error hidle' hrun'] at he ⊢
      exact ⟨rfl, hd, he, hrelated, h.rules, rfl⟩
    · rw [attend_ok hidle hrun] at hd ⊢
      rw [attend_ok hidle' hrun'] at he ⊢
      exact ⟨rfl, hd, he, hrelated, h.rules, rfl⟩
  · have hended' : e.isRunning = false := h.isRunning_eq.trans hended
    rw [attend_ended hended] at hd ⊢
    rw [attend_ended hended'] at he ⊢
    exact ⟨rfl, hd, he, h.engine, h.rules, h.worker⟩

theorem call_of_step (h : Paired R d e) {call : Call} {step : Attempt Engine Crash Reply}
    (hstep : call.step? d.rules = some step) (hblind : step.BlindTo R) :
    (e.call call).1 = (d.call call).1 ∧ Paired R (d.call call).2 (e.call call).2 := by
  obtain ⟨hanswer, hpaired⟩ := h.attend hblind
  rw [h.left.call_eq hstep, h.right.call_eq (h.rules ▸ hstep), hanswer]
  exact ⟨rfl, hpaired⟩

/-- **A call has the same answer in both**, if it does not tell the engines apart. -/
theorem call (h : Paired R d e) (hR : Unnoticed R) (call : Call) :
    (e.call call).1 = (d.call call).1 ∧ Paired R (d.call call).2 (e.call call).2 := by
  cases call with
  | evaluate event =>
      exact h.call_of_step rfl (hR.run (.shared (RequestKey.ofEvent event 0) event d.rules))
  | command asked => exact h.call_of_step rfl (hR.run (.single 0 asked))
  | activate config =>
      refine ⟨rfl, h.left.congr _ _, h.right.congr _ _, h.engine, ?_, h.worker⟩
      exact congrArg (RuleSet.activate · config) h.rules
  | surround answers reporter =>
      exact ⟨rfl, h.left.congr _ _, h.right.congr _ _, hR.within h.engine answers reporter,
        h.rules, h.worker⟩
  | shutdown =>
      rw [Dispatcher.call, Dispatcher.call, h.left.shutdown_eq, h.right.shutdown_eq, h.ending_eq]
      exact ⟨rfl, h.left.stop, h.right.stop, h.engine, h.rules, rfl⟩
  | restart =>
      rw [Dispatcher.call, Dispatcher.call, h.left.restart_eq, h.right.restart_eq, h.ending_eq]
      exact ⟨rfl, .start _ _, .start _ _, hR.reopen h.engine, h.rules, rfl⟩

theorem callAll (h : Paired R d e) (hR : Unnoticed R) (calls : List Call) :
    (callAll calls e).1 = (callAll calls d).1 ∧
      Paired R (callAll calls d).2 (callAll calls e).2 := by
  induction calls generalizing d e with
  | nil => exact ⟨rfl, h⟩
  | cons call rest ih =>
      obtain ⟨hanswer, hnext⟩ := h.call hR call
      obtain ⟨hanswers, hlast⟩ := ih hnext
      exact ⟨congrArg₂ List.cons hanswer hanswers, hlast⟩

end Paired

end Dispatcher
end Placement
