import InitLock.Api.Answer
import InitLock.Key
import InitLock.Log

/-!
# Links to the server

A server answers requests and keeps a state between them. A link remembers what
has been sent and reported over it.
-/

namespace InitLock.Api

/-- Something that answers requests. -/
abbrev Server (σ : Type) := Request → σ → Answer × σ

/-- What is reported while requests are made. -/
inductive Event where
  /-- A record was not deleted because another has its key. -/
  | preconditionFailed (key : Key) (reason : String)
  /-- A machine does not exist. -/
  | machineAbsent (ns machine : String)
  /-- Machines are served at another version than they were looked up at. -/
  | versionChanged (ns machine apiVersion : String)
  /-- A kind is served. -/
  | discovered (group kind apiVersion : String)
  /-- A kind is not served. -/
  | notServed (group kind : String)
  deriving DecidableEq, Repr

namespace Event

def line : Event → Log.Line
  | preconditionFailed key reason =>
    ⟨.debug, "Delete precondition failed",
      [("namespace", key.ns), ("name", key.name), ("reason", reason)]⟩
  | machineAbsent ns machine =>
    ⟨.debug, "Machine not found", [("namespace", ns), ("holder", machine)]⟩
  | versionChanged ns machine apiVersion =>
    ⟨.debug, "Machine version changed, retrying lookup",
      [("namespace", ns), ("holder", machine), ("api_version", apiVersion)]⟩
  | discovered group kind apiVersion =>
    ⟨.debug, "discovered resource version",
      [("group", group), ("kind", kind), ("api_version", apiVersion)]⟩
  | notServed group kind =>
    ⟨.warn, "Resource not found in API discovery", [("group", group), ("kind", kind)]⟩

end Event

/-- A link to a server in state `state`. -/
structure Link (σ : Type) where
  state : σ
  sent : List Request
  events : List Event

abbrev Action (σ α : Type) := StateM (Link σ) α

abbrev Query (σ α : Type) := ExceptT Failure (StateM (Link σ)) α

variable {σ : Type}

namespace Link

def fresh (s : σ) : Link σ := ⟨s, [], []⟩

def report (e : Event) : Action σ Unit :=
  modify fun l => { l with events := l.events ++ [e] }

def send (server : Server σ) (r : Request) : Action σ Answer := fun l =>
  let (a, s) := server r l.state
  (a, { l with state := s, sent := l.sent ++ [r] })

/-- Sends a request that could be built; the answer is the text of the body. -/
def text (server : Server σ) (r : Except RequestFlaw Request) : Query σ (List Char) :=
  match r with
  | .error flaw => throw (.unsent flaw)
  | .ok r => do
    let a ← (send server r : Action σ Answer)
    ExceptT.mk (pure a.text)

def value {α : Type} (server : Server σ) (reader : Json.Reader α)
    (r : Except RequestFlaw Request) : Query σ α := do
  let body ← text server r
  ExceptT.mk (pure (readBody reader body))

def document {α : Type} (server : Server σ) (reader : Json.Reader α) (address : String) :
    Query σ α :=
  match uriOf address with
  | .error flaw => throw (.badAddress flaw)
  | .ok uri => value server reader (.ok ⟨.get, uri, none⟩)

end Link

def collection (group apiVersion ns plural : String) : String :=
  (if group = "" then "/api/" else "/apis/") ++ apiVersion ++ "/namespaces/" ++ ns ++ "/" ++ plural

/-- The address of one object, which must have a name. -/
def member (collection name : String) : Except RequestFlaw String :=
  if name = "" then .error .emptyName else .ok (collection ++ "/" ++ name)

def getRequest (collection name : String) : Except RequestFlaw Request := do
  Request.to .get (← member collection name) none

/-! ## Prepared answers -/

/-- A server that gives prepared answers in order. -/
def replay : Server (List Answer)
  | _, [] => (.broken "script exhausted", [])
  | _, a :: as => (a, as)

end InitLock.Api
