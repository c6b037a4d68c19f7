import InitLock.Api.Backend
import InitLock.Command.Line
import InitLock.Connection
import InitLock.Status

/-!
# Commands

A command is one call of the mutex, which cannot be cancelled; its outcome is
printed, or reported, or an error. In a session the call runs on a backend, and
what the call and the command report is the log. Against a cluster a connection
is set up first.
-/

namespace InitLock.Command

open Mutex

inductive Failure where
  | common (error : Error)
  | logging (error : Log.SetupError)
  | notAcquired (cluster : Cluster) (machine : String)
  | unlockFailed (cluster : Cluster)
  deriving DecidableEq

namespace Failure

def message : Failure → String
  | common error => error.message
  | logging error => "telemetry error: " ++ error.message
  | notAcquired cluster machine =>
    "lock for cluster " ++ cluster.path ++ " is not held by " ++ machine
  | unlockFailed cluster => "failed to release lock for cluster " ++ cluster.path

end Failure

inductive Event where
  | held (cluster machine : String)
  | released (cluster ns : String)
  deriving DecidableEq, Repr

namespace Event

def line : Event → Log.Line
  | held cluster machine => ⟨.info, "Lock held", [("cluster", cluster), ("machine", machine)]⟩
  | released cluster ns => ⟨.info, "Lock released", [("cluster", cluster), ("namespace", ns)]⟩

end Event

/-- How a command ends: its result, what it prints and what it reports. -/
structure Ending where
  result : Except Failure Unit
  printed : String
  events : List Event

namespace Ending

def failed (f : Failure) : Ending := ⟨.error f, "", []⟩

def succeeded (e : Event) : Ending := ⟨.ok (), "", [e]⟩

end Ending

namespace Invocation

def operation (i : Invocation) : Operation :=
  match i.action with
  | .status _ => .inspect
  | .lock machine => .lock machine
  | .unlock => .unlock

def task (i : Invocation) : Task := ⟨i.operation, i.cluster, i.config, false⟩

/-- The end of the command once its call has ended. A call without an answer has not succeeded. -/
def conclude (i : Invocation) (outcome : Outcome) : Ending :=
  let key := i.config.lockKey i.cluster
  match i.action, outcome with
  | .status json, .observed state => ⟨.ok (), Status.render json key state ++ "\n", []⟩
  | .lock machine, .answered true => .succeeded (.held i.clusterName machine)
  | .unlock, .answered true => .succeeded (.released i.clusterName i.ns)
  | _, .failed error => .failed (.common error)
  | .lock machine, _ => .failed (.notAcquired i.cluster machine)
  | _, _ => .failed (.unlockFailed i.cluster)

end Invocation

/-! ## Sessions -/

/-- How a session ends, and its log. A call that got no answer leaves the command without an end. -/
structure Session where
  ending : Option Ending
  log : List Log.Line

namespace Session

def ofRun {σ : Type} (i : Invocation) (r : Run σ) : Session :=
  let ending := r.call.outcome?.map i.conclude
  let events := (ending.map (·.events)).getD []
  ⟨ending, r.entries.map Entry.line ++ events.map Event.line⟩

def failed (e : Error) : Session := ⟨some (.failed (.common e)), []⟩

def atServer {σ : Type} (server : Api.Server σ) (s : σ) (i : Invocation) : Session :=
  let backend := Api.Remote.backend server i.config.fieldManager
  ofRun i (Run.complete backend i.task false ⟨.fresh s, none⟩)

/-- The session of a command at the cluster of a kubeconfig; `serve` is the server that a client
has, and `s` its state. -/
def run {σ : Type} (files : Files) (now : Int) (sources : Kubeconfig.Sources)
    (serve : Client → Api.Server σ) (s : σ) (i : Invocation) : Session :=
  let connection := Connection.setUp files now sources i.kubeconfig
  let session :=
    match connection.client with
    | .error e => failed e
    | .ok client => atServer (serve client) s i
  { session with log := connection.log ++ session.log }

end Session

end InitLock.Command
