import Placement.History
import Placement.Json.Printer
import Placement.Value.Wire
/-! # Coalescing

Requests to evaluate the same event with the same parameters under the same rules
share one evaluation.  The first caller starts it; callers that come while it is in
flight join it and get its outcome.  When an event happened does not count.
-/
namespace Placement

/-- What requests have in common that share an evaluation. -/
structure RequestKey where
  eventName : String
  /-- The parameters as JSON text, with ascending names. -/
  parameters : String
  /-- The number of the configuration that was active. -/
  generation : Nat
  deriving DecidableEq

/-- The key of a request. -/
def RequestKey.ofEvent (event : Event) (generation : Nat) : RequestKey :=
  ⟨event.name, event.parameters.toJson.render, generation⟩

/-- Callers are numbered. -/
abbrev Caller : Type := Nat

/-- The evaluations in flight, each with the callers that wait for it. -/
abbrev Waitlist : Type := List (RequestKey × List Caller)

namespace Waitlist

/-- Whether an evaluation is in flight for a key. -/
def contains (table : Waitlist) (key : RequestKey) : Bool :=
  table.any fun entry => entry.1 == key

/-- The callers that wait for the evaluation of a key. -/
def waiting (table : Waitlist) (key : RequestKey) : List Caller :=
  (table.lookup key).getD []

/-- A caller starts waiting: for the evaluation of its key in flight, or for a new one. -/
def join (table : Waitlist) (key : RequestKey) (caller : Caller) : Waitlist :=
  match table with
  | [] => [(key, [caller])]
  | entry :: rest =>
      if entry.1 = key then (key, entry.2 ++ [caller]) :: rest else entry :: join rest key caller

/-- The table without the evaluation of a key. -/
def remove (table : Waitlist) (key : RequestKey) : Waitlist :=
  table.filter fun entry => entry.1 != key

/-- All callers that wait. -/
def callers (table : Waitlist) : List Caller := table.flatMap Prod.snd

/-- The keys of the evaluations in flight. -/
def keys (table : Waitlist) : List RequestKey := table.map Prod.fst

end Waitlist
end Placement
