import InitLock.Mutex.Event

/-!
# Calls of the mutex

A call is a task and the stage it has reached. At each stage but the last it
has one question open; the answer leads to the next stage and may be reported.

A lock call reads the cluster's record. Without one it creates a record that
names its machine; if another was created first, that one is read. A record
that names the machine means that it holds the lock. One that names another is
left alone while that machine exists and deleted once it is known not to; the
call then still answers false. Anything that fails answers false and leaves the
record in place. An unlock call deletes the record it reads.
-/

namespace InitLock.Mutex

inductive LockState where
  | unlocked
  | held (machine : String)
  | malformed (reason : String)
  deriving DecidableEq, Repr

inductive Outcome where
  | answered (b : Bool)
  | cancelled
  | observed (state : LockState)
  | failed (error : Error)
  deriving DecidableEq

/-- What a cancelled call tells: which operation was interrupted, and for which cluster. -/
structure Cancelled where
  operation : String
  ns : String
  cluster : String
  deriving DecidableEq, Repr

/-- The cancellation as one of the general errors. -/
def Cancelled.toError (c : Cancelled) : Error := .cancelled c.operation (c.ns ++ "/" ++ c.cluster)

/-- What a call is to do. A call that can be cancelled notices that before each question. -/
structure Task where
  operation : Operation
  cluster : Cluster
  config : Config
  cancellable : Bool
  deriving DecidableEq

/-- How far a call has come. -/
inductive Stage where
  /-- The record is to be read. -/
  | reading
  /-- There was no record, so one is to be created. -/
  | creating
  /-- Another record was created first and is to be read. -/
  | rereading
  /-- The record names another machine, of which it is to be known whether it exists. -/
  | checking (record : Record) (holder : String)
  /-- The record is to be deleted, for a holder that is gone or because of an unlock. -/
  | deleting (record : Record) (gone : Option String)
  /-- A question was never answered. -/
  | stalled
  /-- The call has ended. -/
  | ended (outcome : Outcome)
  deriving DecidableEq

structure Call where
  task : Task
  stage : Stage
  deriving DecidableEq

/-- What happens next in a call. -/
inductive Next where
  | ended (outcome : Outcome)
  | stalled
  | asks (question : Question) (resume : question.Answer → List Event × Stage)

namespace Task

def key (t : Task) : Key := t.config.lockKey t.cluster

/-- The namespace in which machines are looked up. -/
def lookupNs (t : Task) : String := t.config.lookupNs t.cluster

def answer (b : Bool) : Stage := .ended (.answered b)

/-- What a record that is there means for the machine that asks. -/
def judge (machine : String) (r : Record) : List Event × Stage :=
  match r.holder with
  | .error m => ([.malformed m.toError], answer false)
  | .ok holder =>
    if holder = machine then ([.alreadyHeld], answer true) else ([], .checking r holder)

def afterRead (t : Task) : Except StoreError Record → List Event × Stage :=
  match t.operation with
  | .lock machine => fun
    | .ok r => judge machine r
    | .error (.notFound _) => ([.attempting], .creating)
    | .error e => ([.readFailed e], answer false)
  | .unlock => fun
    | .ok r => ([], .deleting r none)
    | .error (.notFound _) => ([.absent], answer true)
    | .error e => ([.unlockReadFailed e], answer false)
  | .inspect => fun
    | .ok r =>
      match r.holder with
      | .ok holder => ([], .ended (.observed (.held holder)))
      | .error m => ([], .ended (.observed (.malformed m.toError.message)))
    | .error (.notFound _) => ([], .ended (.observed .unlocked))
    | .error e => ([], .ended (.failed e.toError))

def afterCreate : Except StoreError Unit → List Event × Stage
  | .ok () => ([.acquired], answer true)
  | .error (.alreadyExists _) => ([.lostRace], .rereading)
  | .error e => ([.createFailed e], answer false)

/-- What follows the read after a lost race. -/
def afterReread (machine : String) : Except StoreError Record → List Event × Stage
  | .ok r => judge machine r
  | .error (.notFound _) => ([.winnerGone], answer false)
  | .error e => ([.rereadFailed e], answer false)

def afterAlive (ns : String) (r : Record) (holder : String) :
    Except Error Bool → List Event × Stage
  | .ok true => ([.waiting holder], answer false)
  | .ok false => ([.holderGone holder ns], .deleting r (some holder))
  | .error e => ([.livenessFailed holder ns e], answer false)

/-- Whether a delete leaves no record, and what it reports. -/
def deleted : Except StoreError Unit → Event × Bool
  | .ok () => (.released, true)
  | .error (.notFound _) => (.alreadyReleased, true)
  | .error (.conflict _) => (.replaced, false)
  | .error e => (.deleteFailed e, false)

def afterDelete (gone : Option String) (a : Except StoreError Unit) : List Event × Stage :=
  match gone, deleted a with
  | none, (event, done) => ([event], answer done)
  | some _, (event, true) => ([event], answer false)
  | some holder, (event, false) => ([event, .staleKept holder], answer false)

/-- The machine a task is for; empty unless it is to lock. -/
def machine (t : Task) : String :=
  match t.operation with
  | .lock machine => machine
  | _ => ""

def newRecord (t : Task) : Record :=
  .naming t.machine t.cluster (t.config.lockName t.cluster)

/-- What happens next at a stage. -/
def next (t : Task) : Stage → Next
  | .reading => .asks (.read t.key) t.afterRead
  | .creating => .asks (.create t.newRecord) afterCreate
  | .rereading => .asks (.read t.key) (afterReread t.machine)
  | .checking r holder => .asks (.alive t.lookupNs holder) (afterAlive t.lookupNs r holder)
  | .deleting r gone => .asks (.delete r.key r.uid) (afterDelete gone)
  | .stalled => .stalled
  | .ended outcome => .ended outcome

/-- What is reported as a call begins. -/
def opening (t : Task) : List Event :=
  match t.operation with
  | .inspect => []
  | op => [.opened op t.cluster.name t.key]

def start (t : Task) : List Event × Stage :=
  match t.operation with
  | .lock machine =>
    if machine = "" then (t.opening ++ [.nameless], answer false) else (t.opening, .reading)
  | .unlock => (t.opening ++ [.checking], .reading)
  | .inspect => (t.opening, .reading)

/-- What the call tells if it is cancelled. -/
def cancelled (t : Task) : Cancelled := ⟨t.operation.name, t.cluster.ns, t.cluster.name⟩

/-- What a caller who knows general errors only is told of a cancelled call. -/
def cancellation (t : Task) : Error := t.cancelled.toError

end Task

namespace Call

def outcome? (c : Call) : Option Outcome :=
  match c.stage with
  | .ended outcome => some outcome
  | _ => none

/-- What a lock or unlock call returns once it has ended. -/
def result? (c : Call) : Option (Except Cancelled Bool) :=
  match c.outcome? with
  | some (.answered b) => some (.ok b)
  | some .cancelled => some (.error c.task.cancelled)
  | _ => none

/-- Whether the call has a question open. -/
def isOpen (c : Call) : Bool :=
  match c.stage with
  | .stalled | .ended _ => false
  | _ => true

end Call

end InitLock.Mutex
