import InitLock.Mutex.Call

/-!
# The state of a lock in writing

The status report of a lock, as a line of text or as a JSON document.
-/

namespace InitLock.Status

open Json Mutex

def text (key : Key) : LockState → String
  | .unlocked => key.path ++ ": unlocked"
  | .held machine => key.path ++ ": held by " ++ machine
  | .malformed reason =>
    key.path ++ ": malformed (" ++ reason ++ "); clear it with `etcdadm-lock unlock`"

def word : LockState → String
  | .unlocked => "unlocked"
  | .held _ => "held"
  | .malformed _ => "malformed"

/-- The members that say more about a state. -/
def details : LockState → List (String × Value)
  | .unlocked => []
  | .held machine => [("holder", .record [(Holder.nameMember, .text machine)])]
  | .malformed reason => [("reason", .text reason)]

def json (key : Key) (state : LockState) : Value :=
  .record <|
    [("namespace", .text key.ns), ("lock", .text key.name), ("state", .text (word state))] ++
    details state

def render (asJson : Bool) (key : Key) (state : LockState) : String :=
  if asJson then (json key state).indented else text key state

end InitLock.Status
