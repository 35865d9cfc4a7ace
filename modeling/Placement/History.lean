import Placement.Attempt
import Placement.Dict
import Placement.Time.Timestamp
import Placement.Value
/-! # The history of events

The host keeps the events.  The engine appends to them and asks two questions:
how often an event happened in a span of time, and when it happened last.  An
event counts from the moment it was appended.
-/
namespace Placement

/-- A placement that a user reached. -/
structure Event where
  name : String
  timestamp : Timestamp
  /-- What a condition sees under `params`. -/
  parameters : Attributes

/-- What is asked of a history. -/
inductive HistoryAccess
  | append
  | count
  | mostRecent
  deriving DecidableEq

/-- A history did not do what it was asked. -/
structure HistoryFault where
  reason : String
  deriving DecidableEq

/-- The text of a history fault. -/
def HistoryFault.message (fault : HistoryFault) : String :=
  "event history store failed: " ++ fault.reason

/-- A history of events. -/
structure History where
  /-- When each event happened, in the order they were appended. -/
  events : Dict (List Timestamp)
  /-- How many questions were asked so far. -/
  reads : Nat
  /-- Which of the coming accesses fail. -/
  faults : Faults HistoryAccess

namespace History

/-- A history without events that does not fail. -/
def empty : History := ⟨∅, 0, .none⟩

/-- When the events of one name happened. -/
def times (h : History) (name : String) : List Timestamp := (h.events.find? name).getD []

/-- Events with one more. -/
def record (events : Dict (List Timestamp)) (name : String) (t : Timestamp) :
    Dict (List Timestamp) :=
  events.insert name ((events.find? name).getD [] ++ [t])

/-- The failure that the next access meets. -/
def fault? (h : History) (access : HistoryAccess) : Option HistoryFault :=
  (h.faults.head access).map HistoryFault.mk

/-- Append an event. -/
def append (name : String) (t : Timestamp) : Attempt History HistoryFault Unit := fun h =>
  match h.fault? .append with
  | some fault => (.error fault, { h with faults := h.faults.tail })
  | none => (.ok (), { h with events := record h.events name t, faults := h.faults.tail })

/-- Ask a question.  A question that fails was asked too. -/
def ask {α : Type} (access : HistoryAccess) (answer : History → α) :
    Attempt History HistoryFault α := fun h =>
  let next := { h with reads := h.reads + 1, faults := h.faults.tail }
  match h.fault? access with
  | some fault => (.error fault, next)
  | none => (.ok (answer h), next)

/-- How often an event happened from `start` to `stop`, both included. -/
def countIn (h : History) (name : String) (start stop : Timestamp) : Nat :=
  (h.times name).countP fun t => decide (start ≤ t) && decide (t ≤ stop)

/-- When an event happened last. -/
def last? (h : History) (name : String) : Option Timestamp :=
  match h.times name with
  | [] => none
  | t :: rest => some (rest.foldl Timestamp.later t)

/-- Ask how often an event happened from `start` to `stop`. -/
def count (name : String) (start stop : Timestamp) : Attempt History HistoryFault Nat :=
  ask .count fun h => h.countIn name start stop

/-- Ask when an event happened last. -/
def mostRecent (name : String) : Attempt History HistoryFault (Option Timestamp) :=
  ask .mostRecent fun h => h.last? name

end History
end Placement
