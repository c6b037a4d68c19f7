import InitLock.Record

/-!
# Stores

What the mutex asks of the place where records are kept, and of the one who
knows which machines exist. A create is refused if there is a record under the
key, a delete with a uid if the record there has another: all mutual exclusion
comes from that.
-/

namespace InitLock

/-- Why a store did not do what it was asked. -/
inductive StoreError where
  | notFound (key : Key)
  | alreadyExists (key : Key)
  | conflict (key : Key)
  | other (error : Error)
  deriving DecidableEq, Repr

namespace StoreError

def message : StoreError → String
  | notFound key => "lock record " ++ key.path ++ " not found"
  | alreadyExists key => "lock record " ++ key.path ++ " already exists"
  | conflict key => "lock record " ++ key.path ++ " was replaced since it was read"
  | other error => error.message

def toError : StoreError → Error
  | other error => error
  | e => .internal e.message "store"

end StoreError

/-- What a call may ask. -/
inductive Question where
  | read (key : Key)
  | create (record : Record)
  | delete (key : Key) (uid : Option String)
  | alive (ns holder : String)
  deriving DecidableEq

namespace Question

/-- What is answered to a question. -/
abbrev Answer : Question → Type
  | read _ => Except StoreError Record
  | create _ => Except StoreError Unit
  | delete _ _ => Except StoreError Unit
  | alive _ _ => Except Error Bool

def failure (error : Error) : (q : Question) → q.Answer
  | read _ => .error (.other error)
  | create _ => .error (.other error)
  | delete _ _ => .error (.other error)
  | alive _ _ => .error error

end Question

end InitLock
