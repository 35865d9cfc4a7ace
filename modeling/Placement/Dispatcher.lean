import Placement.Waitlist
import Placement.Engine.Command
/-! # Dispatching requests

Callers hand their requests to **one worker, which takes them in the order they were
sent**.  So an evaluation sees everything that requests sent before it have changed.

A caller that asks for an evaluation first enters its request in the table of what is
in flight (`enter`).  If it is the first with this request it sends a job to the worker
(`send`); otherwise it only waits.  The worker takes a job (`take`), does it and answers
all callers that wait for it (`finish`).

If the worker crashes, what is queued is dropped, later jobs cannot be sent (then the
request is taken back, `withdraw`), and who still waits is told so (`clear`).
-/
namespace Placement

/-- What the worker is sent. -/
inductive Job
  /-- A committed evaluation, for all callers that wait for its key. -/
  | shared (key : RequestKey) (event : Event) (rules : RuleSet)
  /-- A command of one caller. -/
  | single (caller : Caller) (command : Command)

/-- What the worker does. -/
inductive Activity
  | idle
  | busy (job : Job)
  /-- It crashed. -/
  | crashed
  /-- It was shut down. -/
  | stopped

/-- The callers, the jobs between them and the worker, and the worker with its engine. -/
structure Dispatcher where
  engine : Engine
  /-- The active rules. -/
  rules : RuleSet
  worker : Activity
  /-- The jobs that were sent, the first to be done in front. -/
  queue : List Job
  inFlight : Waitlist
  /-- The number of the next caller. -/
  nextCaller : Caller
  /-- The answers so far; nothing for a caller that was dropped. -/
  answers : List (Caller × Option Reply)

namespace Job

/-- Do a job. -/
def run : Job → Attempt Engine Crash Reply
  | .shared _ event rules => return .outcome (← Engine.evaluate event rules .commit)
  | .single _ command => command.run

/-- The callers that wait for a job. -/
def callers (inFlight : Waitlist) : Job → List Caller
  | .shared key _ _ => inFlight.waiting key
  | .single caller _ => [caller]

/-- What is in flight once a job is done. -/
def leave (inFlight : Waitlist) : Job → Waitlist
  | .shared key _ _ => inFlight.remove key
  | .single _ _ => inFlight

/-- The caller of a command. -/
def caller? : Job → Option Caller
  | .shared _ _ _ => none
  | .single caller _ => some caller

end Job

namespace Dispatcher

/-- A dispatcher that has just been started. -/
def start (engine : Engine) (rules : RuleSet) : Dispatcher :=
  { engine := engine.reopen, rules, worker := .idle, queue := [], inFlight := [],
    nextCaller := 0, answers := [] }

/-- Whether jobs can be sent. -/
def isRunning (d : Dispatcher) : Bool :=
  match d.worker with
  | .idle | .busy _ => true
  | .crashed | .stopped => false

/-- Activate a configuration for the requests that come after. -/
def activate (d : Dispatcher) (config : Config) : Dispatcher :=
  { d with rules := d.rules.activate config }

/-- Tell some callers that they are dropped. -/
def drop (d : Dispatcher) (callers : List Caller) : Dispatcher :=
  { d with answers := d.answers ++ callers.map fun caller => (caller, none) }

/-- Answer some callers. -/
def reply (d : Dispatcher) (callers : List Caller) (reply : Reply) : Dispatcher :=
  { d with answers := d.answers ++ callers.map fun caller => (caller, some reply) }

/-! ## Callers -/

/-- A new caller enters a request to evaluate an event under the rules that it read.  If
it is the first with this request there is a job to send. -/
def enterUnder (d : Dispatcher) (rules : RuleSet) (event : Event) : Option Job × Dispatcher :=
  let key := RequestKey.ofEvent event rules.generation
  let job := if d.inFlight.contains key then none else some (.shared key event rules)
  (job, { d with
    inFlight := d.inFlight.join key d.nextCaller, nextCaller := d.nextCaller + 1 })

/-- A new caller enters a request under the active rules. -/
def enter (d : Dispatcher) (event : Event) : Option Job × Dispatcher :=
  d.enterUnder d.rules event

/-- Send a job to the worker, which is possible as long as it runs. -/
def send (d : Dispatcher) (job : Job) : Option Dispatcher :=
  if d.isRunning then some { d with queue := d.queue ++ [job] } else none

/-- Take back the request of a key, because its job could not be sent. -/
def withdraw (d : Dispatcher) (key : RequestKey) : Dispatcher :=
  { d.drop (d.inFlight.waiting key) with inFlight := d.inFlight.remove key }

/-- A caller asks for a committed evaluation. -/
def submit (d : Dispatcher) (event : Event) : Dispatcher :=
  match d.enter event with
  | (none, d) => d
  | (some job, d) =>
      match d.send job with
      | some d => d
      | none => d.withdraw (RequestKey.ofEvent event d.rules.generation)

/-- A caller gives a command. -/
def ask (d : Dispatcher) (command : Command) : Dispatcher :=
  let caller := d.nextCaller
  let d := { d with nextCaller := caller + 1 }
  match d.send (.single caller command) with
  | some d => d
  | none => d.drop [caller]

/-! ## The worker -/

/-- An idle worker takes the first job. -/
def take (d : Dispatcher) : Dispatcher :=
  match d.worker, d.queue with
  | .idle, job :: rest => { d with worker := .busy job, queue := rest }
  | _, _ => d

/-- The worker crashes; the command it had and those in the queue are dropped. -/
def crash (d : Dispatcher) (job : Job) : Dispatcher :=
  { d.drop ((job :: d.queue).filterMap Job.caller?) with worker := .crashed, queue := [] }

/-- The worker finishes its job. -/
def finish (d : Dispatcher) : Dispatcher :=
  match d.worker with
  | .busy job =>
      match job.run d.engine with
      | (.ok reply, engine) =>
          { d.reply (job.callers d.inFlight) reply with
            engine, worker := .idle, inFlight := job.leave d.inFlight }
      | (.error _, engine) => { d with engine }.crash job
  | _ => d

/-- The worker stops. -/
def stop (d : Dispatcher) : Dispatcher := { d with worker := .stopped }

/-- A worker that runs no more drops who still waits for an evaluation. -/
def clear (d : Dispatcher) : Dispatcher :=
  if d.isRunning then d else { d.drop d.inFlight.callers with inFlight := [] }

/-- The worker does the jobs that were sent, at most so many, and clears up if it
crashes. -/
def workFor : Nat → Dispatcher → Dispatcher
  | 0, d => d.clear
  | jobs + 1, d => workFor jobs d.take.finish

/-- The worker does all jobs that were sent, and clears up if it crashes. -/
def work (d : Dispatcher) : Dispatcher := workFor d.queue.length d

/-! ## Answers -/

/-- The answer to a caller: nothing while it waits, and no reply if it was dropped. -/
def answer? (d : Dispatcher) (caller : Caller) : Option (Option Reply) :=
  d.answers.lookup caller

/-- The reply to the caller of an evaluation.  One that is not done failed, because the
worker does not run. -/
def outcomeFor (d : Dispatcher) (caller : Caller) : Reply :=
  match d.answer? caller with
  | some (some reply) => reply
  | _ => .outcome (.failed Failure.workerUnavailable.kind)

/-- The reply to the caller of a command. -/
def replyFor (d : Dispatcher) (caller : Caller) (command : Command) : Reply :=
  match d.answer? caller with
  | some (some reply) => reply
  | _ => command.unavailable

/-! ## Starting and stopping -/

/-- The confirmed assignments in memory; nothing after a shutdown. -/
def confirmedAssignments? (d : Dispatcher) : Option (Dict Variant) :=
  match d.worker with
  | .stopped => none
  | _ => some d.engine.cache.confirmedSnapshot

/-- **Stop the worker** after it has done what was sent.  The result is missing if it was
stopped before, and tells whether it crashed. -/
def shutdown (d : Dispatcher) : Option (Except Failure Unit) × Dispatcher :=
  let d := d.work
  let result := match d.worker with
    | .stopped => none
    | .crashed => some (.error .workerCrashed)
    | .idle | .busy _ => some (.ok ())
  (result, d.stop)

/-- Stop the worker and start another one over the same store, history and rules. -/
def restart (d : Dispatcher) : Option (Except Failure Unit) × Dispatcher :=
  let (result, d) := d.shutdown
  (result, start d.engine d.rules)

end Dispatcher
end Placement
