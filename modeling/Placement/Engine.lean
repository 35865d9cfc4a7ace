import Placement.Assignments
import Placement.Crash
import Placement.History
import Placement.Outcome
/-! # The engine

The engine works on the assignments and attributes of one user, on the history of
events, and on two collaborators: a source of device attributes and a receiver of
trigger fires.  It does one thing at a time; `Placement.Dispatcher` says in which
order.

The attributes of the user are loaded when they are first needed (`Engine.currentUser`).
-/
namespace Placement

/-- The user the engine works for. -/
structure User where
  attributes : Attributes
  /-- The name under which the user is known, once identified. -/
  id : Option String
  deriving Inhabited

/-- Nothing is known about the user. -/
def User.unknown : User := ⟨∅, none⟩

/-- The source of device attributes. -/
structure Device where
  /-- What it shows each time that it is asked; where it shows nothing it crashes. -/
  answers : Tape (Option Attributes)
  /-- How often it was asked so far. -/
  queries : Nat

/-- The receiver of trigger fires. -/
structure Reporter where
  /-- What was reported so far. -/
  fires : List Fire
  /-- It crashes when something is reported. -/
  broken : Bool

/-- The engine with all that it works on. -/
structure Engine where
  cache : AssignmentCache
  history : History
  /-- The user, once loaded. -/
  user : Option User
  device : Device
  reporter : Reporter
  /-- Whether the seed follows from the name of an identified user. -/
  seedFromUserId : Bool

namespace Engine
variable {α ε : Type}

/-- Forget what was loaded. -/
def reopen (engine : Engine) : Engine :=
  { engine with cache := engine.cache.reopen, user := none }

/-- The store that the engine works on. -/
def store (engine : Engine) : Store := engine.cache.store

/-- The engine over another store. -/
def setStore (store : Store) (engine : Engine) : Engine :=
  { engine with cache := { engine.cache with store } }

/-- A step on the assignments. -/
def onCache (step : Attempt AssignmentCache ε α) : Attempt Engine ε α :=
  step.on Engine.cache fun cache engine => { engine with cache }

/-- A step on the store. -/
def onStore (step : Attempt Store PersistenceFault α) : Attempt Engine PersistenceFault α :=
  step.on Engine.store setStore

/-- A step on the history. -/
def onHistory (step : Attempt History ε α) : Attempt Engine ε α :=
  step.on Engine.history fun history engine => { engine with history }

/-- Change the user in memory. -/
def setUser (user : User) : Attempt Engine ε Unit :=
  modify fun engine => { engine with user := some user }

/-- The user in memory; if there is none, the stored one is loaded first. -/
def currentUser : Attempt Engine PersistenceFault User := do
  match (← get).user with
  | some user => return user
  | none =>
      let attributes := (← onStore Key.userAttributes.read).getD ∅
      let id ← onStore Key.appUserId.read
      setUser ⟨attributes, id⟩
      return ⟨attributes, id⟩

/-- Ask for the device attributes. -/
def askDevice : Attempt Engine Crash Attributes := do
  let device := (← get).device
  modify fun engine => { engine with device := ⟨device.answers.tail, device.queries + 1⟩ }
  match device.answers.head with
  | some attributes => return attributes
  | none => throw .device

/-- Report a trigger fire. -/
def report (fire : Fire) : Attempt Engine Crash Unit := do
  let engine ← get
  if engine.reporter.broken then throw .reporter
  set { engine with reporter := { engine.reporter with fires := engine.reporter.fires ++ [fire] } }

end Engine
end Placement
