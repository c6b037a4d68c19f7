import InitLock.Api.ConfigMap
import InitLock.Api.Link
import InitLock.Store

/-!
# Records on the server

The store that keeps each lock record as a ConfigMap in its namespace. The
server refuses to create an object that is there, and to delete one whose uid
is not the one asked for.
-/

namespace InitLock.Api.Records

variable {σ : Type}

def address (ns : String) : String := collection "" ConfigMap.apiVersion ns "configmaps"

def readRequest (key : Key) : Except RequestFlaw Request := getRequest (address key.ns) key.name

/-- How long the name of a field manager may be, in bytes. -/
def maxFieldManager : Nat := 128

def createRequest (manager : String) (r : Record) : Except RequestFlaw Request :=
  if maxFieldManager < manager.utf8ByteSize then .error .longFieldManager
  else
    Request.to .post (address r.ns ++ "?&fieldManager=" ++ Text.formEncode manager)
      (some (ConfigMap.ofRecord r).toJson)

/-- What a delete requires of the record it removes. -/
def deleteBody : Option String → Json.Value
  | none => .object []
  | some uid => .record [("preconditions", .record [("uid", .text uid)])]

def deleteRequest (key : Key) (uid : Option String) : Except RequestFlaw Request := do
  let object ← member (address key.ns) key.name
  Request.to .delete (object ++ "?") (some (deleteBody uid))

def read (server : Server σ) (key : Key) : Action σ (Except StoreError Record) := do
  match ← (Link.value server ConfigMap.reader (readRequest key)).run with
  | .ok c => return .ok (c.toRecord key)
  | .error f => return .error (if f.isNotFound then .notFound key else .other (.api f))

def create (server : Server σ) (manager : String) (r : Record) :
    Action σ (Except StoreError Unit) := do
  match ← (Link.value server ConfigMap.reader (createRequest manager r)).run with
  | .ok _ => return .ok ()
  | .error f => return .error (if f.isAlreadyExists then .alreadyExists r.key else .other (.api f))

/-- The error of a delete that failed, and what is reported of it. -/
def deleteError (key : Key) (uid : Option String) (f : Failure) : StoreError × Option Event :=
  match f with
  | .refused r =>
    if r.code = 404 then (.notFound key, none)
    else if uid.isSome ∧ r.code = 409 then
      (.conflict key, some (.preconditionFailed key r.reason))
    else (.other (.api f), none)
  | f => (.other (.api f), none)

/-- Deletes the record under a key, if a uid is given only the one of that uid. -/
def delete (server : Server σ) (key : Key) (uid : Option String) :
    Action σ (Except StoreError Unit) := do
  let body ← (Link.text server (deleteRequest key uid)).run
  match body.bind (readDeleted ConfigMap.reader) with
  | .ok () => return .ok ()
  | .error f =>
    let (e, event) := deleteError key uid f
    event.forM Link.report
    return .error e

end InitLock.Api.Records
