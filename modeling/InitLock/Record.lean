import InitLock.Config
import InitLock.Error
import InitLock.Json.Printer
import InitLock.Json.Reader
import InitLock.Table

/-!
# Lock records

The record of a held lock. It is written once, by the machine whose create
wins, and never changed; its payload names that machine. The payload is a JSON
object with one known member, `machineName`. Other members are passed over. A
list of one string is read as the object of that name.
-/

namespace InitLock

/-! ## Holder information -/

namespace Holder

open Json

def nameMember : String := "machineName"

def payload (machine : String) : String :=
  (Value.record [(nameMember, .text machine)]).compact

/-- What is done with a member, given the name found so far. -/
def member (name : String) (found : Option String) : Reader.Member (Option String) :=
  if name = nameMember then
    if found.isSome then .refuse (.duplicateMember nameMember) else .take (Reader.text.map some)
  else .skip

/-- The name, once all members have been seen. -/
def required : Option String → Except Problem String
  | some machine => .ok machine
  | none => .error (.missingMember nameMember)

/-- The one element of a list in place of the object. -/
def element (depth : Nat) (cs : List Char) : Parsed String :=
  match Reader.nextItem true cs with
  | .error f => .error f
  | .ok (false, rest) => .error (.unplaced (.wrongLength 0 "struct HolderInfo with 1 element") rest)
  | .ok (true, rest) => Reader.text depth rest

def reader : Reader String :=
  Reader.objectOr "struct HolderInfo" (some element) member required none

def ofPayload (payload : String) : Except Fault String :=
  reader.document payload.toList

end Holder

/-! ## Records -/

/-- A lock record. -/
structure Record where
  ns : String
  name : String
  uid : Option String
  labels : Table String String
  owner : Option Owner
  data : Table String String
  deriving DecidableEq, Inhabited

namespace Record

def clusterLabel : String := "cluster.x-k8s.io/cluster-name"

def payloadEntry : String := "lock-information"

def key (r : Record) : Key := ⟨r.ns, r.name⟩

/-- The record of a lock that a machine is to hold. -/
def naming (machine : String) (cluster : Cluster) (name : String) : Record where
  ns := cluster.ns
  name := name
  uid := none
  labels := Table.empty.insert clusterLabel cluster.name
  owner := cluster.owner
  data := Table.empty.insert payloadEntry (Holder.payload machine)

def payload? (r : Record) : Option String := r.data.get? payloadEntry

/-- Why a record names no holder. -/
inductive Malformed where
  | noPayload (record : String)
  | unreadable (message : String)
  | emptyName (record : String)
  deriving DecidableEq, Repr

namespace Malformed

def message : Malformed → String
  | noPayload record => "lock record " ++ record ++ " has no " ++ payloadEntry ++ " entry"
  | unreadable message => "failed to unmarshal lock information: " ++ message
  | emptyName record => "lock record " ++ record ++ " names no machine"

def toError (m : Malformed) : Error := .serialization m.message (some "HolderInfo")

end Malformed

/-- The machine that holds the lock. -/
def holder (r : Record) : Except Malformed String :=
  match r.payload? with
  | none => .error (.noPayload r.name)
  | some payload =>
    match Holder.ofPayload payload with
    | .error fault => .error (.unreadable (fault.message payload.toList))
    | .ok machine => if machine = "" then .error (.emptyName r.name) else .ok machine

end Record

end InitLock
