import InitLock.Log
import InitLock.Store

/-!
# Events of a call

What a lock or unlock call reports while it runs, and the log line of each
event.
-/

namespace InitLock.Mutex

inductive Operation where
  | lock (machine : String)
  | unlock
  | inspect
  deriving DecidableEq, Repr

namespace Operation

def name : Operation → String
  | lock _ => "lock"
  | unlock => "unlock"
  | inspect => "inspect"

end Operation

/-- What a call reports. -/
inductive Event where
  /-- The call begins. -/
  | opened (operation : Operation) (cluster : String) (key : Key)
  /-- A machine without a name may not hold a lock. -/
  | nameless
  /-- The first read of a lock call failed. -/
  | readFailed (error : StoreError)
  /-- There is no record, so one is created. -/
  | attempting
  /-- The record was created. -/
  | acquired
  /-- Another record was created first. -/
  | lostRace
  /-- That other record is gone again. -/
  | winnerGone
  /-- That other record could not be read. -/
  | rereadFailed (error : StoreError)
  /-- The record could not be created. -/
  | createFailed (error : StoreError)
  /-- The record names no holder. -/
  | malformed (error : Error)
  /-- The record names the machine that asks. -/
  | alreadyHeld
  /-- The holder exists. -/
  | waiting (holder : String)
  /-- The holder does not exist. -/
  | holderGone (holder ns : String)
  /-- The record of a holder that does not exist could not be removed. -/
  | staleKept (holder : String)
  /-- Whether the holder exists is not known. -/
  | livenessFailed (holder ns : String) (error : Error)
  /-- An unlock call looks for the record. -/
  | checking
  /-- There is no record to release. -/
  | absent
  /-- The read of an unlock call failed. -/
  | unlockReadFailed (error : StoreError)
  /-- The record was deleted. -/
  | released
  /-- The record was deleted by another call. -/
  | alreadyReleased
  /-- Another record is there now. -/
  | replaced
  /-- The record could not be deleted. -/
  | deleteFailed (error : StoreError)
  /-- The caller gave the call up. -/
  | cancelled (operation : Operation)
  deriving DecidableEq

namespace Event

open Log

/-- The text of a line that says a call begins. -/
def spanText : Operation → String
  | .lock _ => "span etcd_init_lock"
  | .unlock => "span etcd_init_unlock"
  | .inspect => "span etcd_init_inspect"

def machineField : Operation → List (String × String)
  | .lock machine => [("machine", machine)]
  | _ => []

def line : Event → Line
  | opened op cluster key =>
    ⟨.info, spanText op,
      [("namespace", key.ns), ("cluster", cluster), ("lock", key.name)] ++ machineField op⟩
  | nameless => ⟨.error, "Refusing to acquire the lock for a machine without a name", []⟩
  | readFailed e => ⟨.error, "Failed to acquire lock", [("error", e.message)]⟩
  | attempting => ⟨.info, "Attempting to acquire the lock", []⟩
  | acquired => ⟨.info, "Lock acquired", []⟩
  | lostRace => ⟨.info, "Lost the race to create the lock, checking the winner", []⟩
  | winnerGone => ⟨.debug, "Winning lock was released before it could be read", []⟩
  | rereadFailed e =>
    ⟨.error, "Failed to read the lock after losing the create race", [("error", e.message)]⟩
  | createFailed e => ⟨.error, "Error acquiring the lock", [("error", e.message)]⟩
  | malformed e =>
    ⟨.error, "Failed to get information about the existing lock", [("error", e.message)]⟩
  | alreadyHeld => ⟨.debug, "Machine already holds the lock", []⟩
  | waiting holder =>
    ⟨.info, "Waiting on another machine to initialize", [("holder", holder)]⟩
  | holderGone holder ns =>
    ⟨.info, "Machine that acquired the lock not found, releasing the lock",
      [("holder", holder), ("holder_namespace", ns)]⟩
  | staleKept holder => ⟨.warn, "Stale lock was not released", [("holder", holder)]⟩
  | livenessFailed holder ns e =>
    ⟨.error, "Failed to check whether the lock holder exists",
      [("holder", holder), ("holder_namespace", ns), ("error", e.message)]⟩
  | checking => ⟨.debug, "Checking for lock", []⟩
  | absent => ⟨.info, "Lock not found, it may have been released already", []⟩
  | unlockReadFailed e => ⟨.error, "Error unlocking the etcd init lock", [("error", e.message)]⟩
  | released => ⟨.info, "Lock released", []⟩
  | alreadyReleased => ⟨.debug, "Lock was already deleted by another caller", []⟩
  | replaced => ⟨.warn, "Lock was replaced by a new holder before it could be deleted", []⟩
  | deleteFailed e => ⟨.error, "Error deleting the lock record", [("error", e.message)]⟩
  | cancelled op => ⟨.warn, "Lock operation cancelled", [("operation", op.name)]⟩

end Event

end InitLock.Mutex
