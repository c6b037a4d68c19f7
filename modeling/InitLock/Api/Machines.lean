import InitLock.Api.Discovery
import InitLock.Api.Object
import InitLock.Config

/-!
# Machines on the server

Whether a machine exists, asked of the server. The resource that serves
machines is discovered once and kept. The server also answers 404 where a
resource is no longer served, so a machine counts as absent only if discovery,
run again after the 404, still finds machines where they were looked for; if
they have moved to another version they are looked for there.
-/

namespace InitLock.Api.Machines

variable {σ : Type}

def kindName : String := "Machine"

def request (r : Resource) (ns machine : String) : Except RequestFlaw Request :=
  getRequest (collection r.group r.apiVersion ns r.plural) machine

/-- Whether there is a machine where a resource says. -/
def lookUp (server : Server σ) (r : Resource) (ns machine : String) :
    Action σ (Except Error Bool) := do
  match ← (Link.value server Object.reader (request r ns machine)).run with
  | .ok _ => return .ok true
  | .error f => return if f.isNotFound then .ok false else .error (.api f)

/-- Discovers the resource that serves machines; it is kept until discovery fails. -/
def discover (server : Server σ) : Action σ (Except Error Resource × Option Resource) := do
  let found ← Discovery.find server Cluster.group kindName
  return (found, found.toOption)

/-- The resource that serves machines, as it is kept if it is. -/
def resource (server : Server σ) (kept : Option Resource) :
    Action σ (Except Error Resource × Option Resource) :=
  match kept with
  | some r => return (.ok r, kept)
  | none => discover server

/-- Confirms a 404 for a machine looked up at `r`. -/
def confirm (server : Server σ) (r : Resource) (ns machine : String) :
    Action σ (Except Error Bool × Option Resource) := do
  let (current, kept) ← discover server
  match current with
  | .error e => return (.error e, kept)
  | .ok current =>
    if current.apiVersion = r.apiVersion then
      Link.report (.machineAbsent ns machine)
      return (.ok false, kept)
    else
      Link.report (.versionChanged ns machine current.apiVersion)
      return (← lookUp server current ns machine, kept)

/-- Whether a machine exists, and the resource kept after the answer. -/
def alive (server : Server σ) (ns machine : String) (kept : Option Resource) :
    Action σ (Except Error Bool × Option Resource) := do
  let (found, kept) ← resource server kept
  match found with
  | .error e => return (.error e, kept)
  | .ok r =>
    match ← lookUp server r ns machine with
    | .ok false => confirm server r ns machine
    | answer => return (answer, kept)

end InitLock.Api.Machines
