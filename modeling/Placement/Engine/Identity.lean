import Placement.Engine
/-! # Who the user is

Attributes and name of the user are written to the store before they change in memory.
**To identify as another user forgets the one before**: attributes, assignments and
seed.
-/
namespace Placement.Engine

/-- Attributes with changes put over them.  A change to nothing removes the attribute. -/
def change (attributes changes : Attributes) : Attributes :=
  changes.entries.foldl
    (fun attributes change =>
      if change.2.isNull then attributes.erase change.1
      else attributes.insert change.1 change.2)
    attributes

/-- Change attributes of the user. -/
def setAttributes (changes : Attributes) : Attempt Engine PersistenceFault Unit := do
  let user ← currentUser
  let attributes := change user.attributes changes
  onStore (Key.userAttributes.write attributes)
  setUser { user with attributes }

/-- **Forget the user**: assignments, attributes and name; a new seed is drawn.  If the
store fails, the user is loaded again when needed. -/
def reset : Attempt Engine PersistenceFault Unit := do
  modify fun engine => { engine with user := none }
  onCache AssignmentCache.reset
  onStore Key.userAttributes.delete
  onStore Key.appUserId.delete
  setUser .unknown

/-- The attribute that shows the name of an identified user. -/
def appUserIdAttribute : String := "appUserId"

/-- **Work for the user with a certain name from now on.**  If another user was
identified before, that one is forgotten. -/
def identify (userId : String) : Attempt Engine PersistenceFault Unit := do
  let current := (← currentUser).id
  if current = some userId then return ()
  if current.isSome then reset
  onStore (Key.appUserId.write userId)
  if (← get).seedFromUserId then onCache (AssignmentCache.useSeed (Seed.ofUserId userId))
  setUser { ← currentUser with id := some userId }
  setAttributes (Dict.ofList [(appUserIdAttribute, .string userId)])

/-- Take over assignments that the server decided. -/
def restore (server : List ServerAssignment) (rules : RuleSet) :
    Attempt Engine PersistenceFault Nat :=
  onCache (AssignmentCache.adopt server rules)

end Placement.Engine
