import Placement.Dispatcher
import Placement.Proofs.Dispatch.Waiting
/-! # Callers and worker, step by step

Callers come at any time and do not wait for one another, so between two steps of one
caller, anything may happen.  A caller that asks for an evaluation takes up to three steps:
it enters its request in the table, sends the job if it is the first with this request, and
takes the request back if the job could not be sent.  The worker takes a job, finishes it
or breaks down in the middle of it; it stops when no more callers can come and the queue is
empty.  Whatever ended it, it clears the table afterwards.

A `Traffic` is a dispatcher between two such steps: the dispatcher itself, which the steps
change by its own functions, and what callers have begun.  **Records** that only grow, and
that no step looks at, tell who joined which evaluation, what was put on the queue, and
what the worker did.
-/
namespace Placement

/-- A request of a caller to evaluate an event, under the rules that it read. -/
structure Request where
  caller : Caller
  event : Event
  rules : RuleSet

namespace Request

/-- The key of a request. -/
def key (request : Request) : RequestKey :=
  .ofEvent request.event request.rules.generation

/-- The job that a request needs, if no other one has its key. -/
def job (request : Request) : Job := .shared request.key request.event request.rules

end Request

/-- A caller that joined the evaluation of a key, and the caller that started it. -/
structure Joining where
  caller : Caller
  key : RequestKey
  leader : Caller

/-- A job that the worker finished, with the engine it started from. -/
structure Completion where
  job : Job
  before : Engine
  /-- Who was answered, the caller that sent the job in front. -/
  callers : List Caller
  reply : Reply

/-- A dispatcher between two steps of its callers and its worker. -/
structure Traffic where
  dispatcher : Dispatcher
  /-- Requests whose job is still to be sent. -/
  unsent : List Request
  /-- Requests whose job could not be sent, still to be taken back. -/
  refused : List Request
  /-- No more callers can come. -/
  closed : Bool
  /-- The table was cleared after the worker ended. -/
  cleared : Bool
  /-- The callers of evaluations so far. -/
  joinings : List Joining
  /-- What was put on the queue so far, by whom. -/
  sent : List (Caller × Job)
  /-- What the worker finished so far. -/
  done : List Completion

namespace Job

/-- The key of an evaluation. -/
def key? : Job → Option RequestKey
  | .shared key _ _ => some key
  | .single _ _ => none

end Job

namespace Dispatcher

/-- The job that the worker does. -/
def running (d : Dispatcher) : List Job :=
  match d.worker with
  | .busy job => [job]
  | _ => []

/-- The jobs that were sent and are not done. -/
def outstanding (d : Dispatcher) : List Job := d.running ++ d.queue

/-- The callers that wait for a command. -/
def asking (d : Dispatcher) : List Caller := d.outstanding.filterMap Job.caller?

/-- The callers that were answered or dropped. -/
def answered (d : Dispatcher) : List Caller := d.answers.map Prod.fst

end Dispatcher

namespace Traffic

/-- Nobody has come yet. -/
def start (engine : Engine) (rules : RuleSet) : Traffic :=
  { dispatcher := .start engine rules, unsent := [], refused := [], closed := false,
    cleared := false, joinings := [], sent := [], done := [] }

/-- A new caller enters a request. -/
def enter (t : Traffic) (event : Event) (rules : RuleSet) : Traffic :=
  let request : Request := ⟨t.dispatcher.nextCaller, event, rules⟩
  let (job, d) := t.dispatcher.enterUnder rules event
  { t with
    dispatcher := d
    unsent := if job.isSome then t.unsent ++ [request] else t.unsent
    joinings := t.joinings ++
      [⟨request.caller, request.key, (d.inFlight.waiting request.key).headD request.caller⟩] }

/-- A caller sends the job of its request, or finds that the worker has ended. -/
def send (t : Traffic) (request : Request) (others : List Request) : Traffic :=
  match t.dispatcher.send request.job with
  | some d =>
      { t with
        dispatcher := d, unsent := others, sent := t.sent ++ [(request.caller, request.job)] }
  | none => { t with unsent := others, refused := request :: t.refused }

/-- A caller whose job could not be sent takes its request back. -/
def withdraw (t : Traffic) (request : Request) (others : List Request) : Traffic :=
  { t with dispatcher := t.dispatcher.withdraw request.key, refused := others }

/-- A new caller gives a command. -/
def ask (t : Traffic) (command : Command) : Traffic :=
  let caller := t.dispatcher.nextCaller
  { t with
    dispatcher := t.dispatcher.ask command
    sent := if t.dispatcher.isRunning then t.sent ++ [(caller, .single caller command)]
      else t.sent }

/-- The worker takes a job. -/
def take (t : Traffic) : Traffic := { t with dispatcher := t.dispatcher.take }

/-- The worker finishes a job. -/
def finish (t : Traffic) (job : Job) (reply : Reply) : Traffic :=
  { t with
    dispatcher := t.dispatcher.finish
    done := t.done ++
      [⟨job, t.dispatcher.engine, job.callers t.dispatcher.inFlight, reply⟩] }

/-- The worker breaks down in the middle of a job and leaves some engine. -/
def fail (t : Traffic) (job : Job) (engine : Engine) : Traffic :=
  { t with dispatcher := { t.dispatcher with engine }.crash job }

/-- The worker stops. -/
def stop (t : Traffic) : Traffic := { t with dispatcher := t.dispatcher.stop }

/-- A worker that has ended clears the table. -/
def clear (t : Traffic) : Traffic := { t with dispatcher := t.dispatcher.clear, cleared := true }

/-- What was put on the queue and is not done. -/
def pending (t : Traffic) : List (Caller × Job) := t.sent.drop t.done.length

/-- **The requests whose evaluation is to come**, with their callers: those whose job is
still to be sent, and those whose job was sent and is not done. -/
def owners (t : Traffic) : List (Caller × RequestKey) :=
  t.unsent.map (fun request => (request.caller, request.key)) ++
    t.pending.filterMap fun (caller, job) => job.key?.map fun key => (caller, key)

/-- The callers that joined the evaluation that a caller started. -/
def followers (t : Traffic) (leader : Caller) : List Caller :=
  (t.joinings.filter fun joining => joining.leader = leader).map Joining.caller

/-- **One step** of a caller or of the worker. -/
inductive Step (t : Traffic) : Traffic → Prop
  /-- The rules may have changed since the caller read them. -/
  | enter (event : Event) (rules : RuleSet) : Step t (t.enter event rules)
  | send {request : Request} {others : List Request}
      (h : t.unsent.Perm (request :: others)) : Step t (t.send request others)
  | withdraw {request : Request} {others : List Request}
      (h : t.refused.Perm (request :: others)) : Step t (t.withdraw request others)
  | ask (command : Command) : Step t (t.ask command)
  | take : Step t t.take
  | finish {job : Job} {reply : Reply} {engine : Engine}
      (hbusy : t.dispatcher.worker = .busy job)
      (hrun : (job.run).outcome t.dispatcher.engine = (.ok reply, engine)) :
      Step t (t.finish job reply)
  /-- Whatever brings the worker down. -/
  | fail {job : Job} (hbusy : t.dispatcher.worker = .busy job) (engine : Engine) :
      Step t (t.fail job engine)
  | close : Step t { t with closed := true }
  | stop (hidle : t.dispatcher.worker = .idle) (hqueue : t.dispatcher.queue = [])
      (hclosed : t.closed = true) : Step t t.stop
  | clear (hended : t.dispatcher.isRunning = false) (hcleared : t.cleared = false) :
      Step t t.clear

/-- What can become of a dispatcher that starts over an engine, in any order of steps. -/
inductive Reachable (engine : Engine) (rules : RuleSet) : Traffic → Prop
  | start : Reachable engine rules (.start engine rules)
  | next {t u : Traffic} (ht : Reachable engine rules t) (h : Step t u) :
      Reachable engine rules u

end Traffic
end Placement
