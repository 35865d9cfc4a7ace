import Placement.Attempt
import Placement.Experiment.Wire
import Placement.Value.Wire
/-! # Stored documents

The host stores JSON documents under a few fixed keys.  **A failed access leaves
the store as it was**; a successful write or deletion is durable.

A `Key` fixes what is stored under it, so that documents are read and written as
values (`Key.read`, `Key.write`).
-/
namespace Placement

/-- What is asked of a store. -/
inductive StoreAccess
  | read (key : String)
  | write (key : String)
  | delete (key : String)
  deriving DecidableEq

/-- A store did not do what it was asked, or holds something else than expected. -/
inductive PersistenceFault
  | read (key reason : String)
  /-- A failed write or deletion. -/
  | write (key reason : String)
  | undecodable (key : String) (cause : DecodeFault)
  deriving DecidableEq

/-- The text of a persistence fault. -/
def PersistenceFault.message : PersistenceFault → String
  | .read key reason => "failed to read " ++ key ++ ": " ++ reason
  | .write key reason => "failed to write " ++ key ++ ": " ++ reason
  | .undecodable key cause => "failed to decode " ++ key ++ ": " ++ cause.message

/-- A store of documents. -/
structure Store where
  documents : Dict Json
  /-- Which of the coming accesses fail. -/
  faults : Faults StoreAccess
  /-- The keys that were written or deleted, the latest first. -/
  changed : List String

namespace Store

/-- A store that holds some documents and does not fail. -/
def ofDocuments (documents : Dict Json) : Store := ⟨documents, .none, []⟩

/-- Make an access: what it does unless it fails, and the fault it has if it fails. -/
def access {α : Type} (what : StoreAccess) (fault : String → PersistenceFault)
    (act : Store → α × Store) : Attempt Store PersistenceFault α := fun store =>
  let next := { store with faults := store.faults.tail }
  match store.faults.head what with
  | some reason => (.error (fault reason), next)
  | none => (.ok (act next).1, (act next).2)

/-- Read the document under a key. -/
def read (key : String) : Attempt Store PersistenceFault (Option Json) :=
  access (.read key) (.read key) fun store => (store.documents.find? key, store)

/-- Write a document under a key. -/
def write (key : String) (document : Json) : Attempt Store PersistenceFault Unit :=
  access (.write key) (.write key) fun store =>
    ((), { store with
      documents := store.documents.insert key document, changed := key :: store.changed })

/-- Delete the document under a key, if there is one. -/
def delete (key : String) : Attempt Store PersistenceFault Unit :=
  access (.delete key) (.write key) fun store =>
    ((), { store with
      documents := store.documents.erase key, changed := key :: store.changed })

end Store

/-- A key together with the form of what is stored under it. -/
structure Key (α : Type) where
  name : String
  encode : α → Json
  decode : Json → Except DecodeFault α

namespace Key
variable {α : Type}

/-- Where the seed is stored. -/
def seed : Key Seed := ⟨"store.seed", Seed.toJson, Seed.decode⟩

/-- Where the confirmed assignments are stored, by experiment. -/
def confirmedAssignments : Key (Dict Variant) :=
  ⟨"store.confirmedAssignments", Json.ofDict Variant.toJson,
    fun j => DecodeFault.ofOption (j.dict? Variant.decode?)⟩

/-- Where the attributes of the user are stored. -/
def userAttributes : Key Attributes :=
  ⟨"store.userAttributes", Attributes.toJson, fun j => DecodeFault.ofOption (Attributes.decode? j)⟩

/-- Where the name of the user is stored. -/
def appUserId : Key String :=
  ⟨"store.appUserId", .string, fun j => DecodeFault.ofOption j.string?⟩

/-- What is stored under a key, if a document is there. -/
def ofDocument (key : Key α) : Option Json → Except PersistenceFault (Option α)
  | none => .ok none
  | some document =>
      match key.decode document with
      | .ok x => .ok (some x)
      | .error cause => .error (.undecodable key.name cause)

/-- Read what is stored under a key; nothing if no document is there. -/
def read (key : Key α) : Attempt Store PersistenceFault (Option α) := do
  let document ← Store.read key.name
  Attempt.ofResult (key.ofDocument document)

/-- Store a value under a key. -/
def write (key : Key α) (x : α) : Attempt Store PersistenceFault Unit :=
  Store.write key.name (key.encode x)

/-- Remove what is stored under a key. -/
def delete (key : Key α) : Attempt Store PersistenceFault Unit := Store.delete key.name

end Key
end Placement
