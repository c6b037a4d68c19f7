import InitLock.Store

/-!
# The store in memory

Records in a table, each with a uid that is never given twice. The counters
count the creates and deletes that succeeded.
-/

namespace InitLock.Store

/-- A store in memory. The counters are natural numbers. Counters of 64 bits agree with them while
fewer than `2 ^ 64 - 1` uids have been given, since no more records are created or deleted. -/
structure Memory where
  records : Table Key Record
  assigned : Nat
  creates : Nat
  deletes : Nat
  deriving DecidableEq, Inhabited

namespace Memory

def empty : Memory := ⟨.empty, 0, 0, 0⟩

def uid (n : Nat) : String := "mem-" ++ String.ofList (Nat.toDigits 10 n)

def nextUid (s : Memory) : String := uid (s.assigned + 1)

/-- Puts a record under its key with a new uid. -/
def store (s : Memory) (r : Record) : Memory :=
  { s with
    records := s.records.insert r.key { r with uid := some s.nextUid }
    assigned := s.assigned + 1 }

/-- Puts a record in place of any under its key; the answer is its uid. -/
def insert (s : Memory) (r : Record) : String × Memory := (s.nextUid, s.store r)

def read (s : Memory) (k : Key) : Except StoreError Record :=
  match s.records.get? k with
  | some r => .ok r
  | none => .error (.notFound k)

/-- Stores a record unless there is one under its key. -/
def create (s : Memory) (r : Record) : Except StoreError Unit × Memory :=
  if r.ns = "" ∨ r.name = "" then
    (.error (.other (.validation "lock record needs a namespace and a name" none)), s)
  else
    match s.records.get? r.key with
    | some _ => (.error (.alreadyExists r.key), s)
    | none =>
      let s := s.store r
      (.ok (), { s with creates := s.creates + 1 })

/-- Removes the record under a key, if a uid is given only the one of that uid. -/
def delete (s : Memory) (k : Key) (expected : Option String) : Except StoreError Unit × Memory :=
  match s.records.get? k with
  | none => (.error (.notFound k), s)
  | some r =>
    if expected.isSome ∧ r.uid ≠ expected then (.error (.conflict k), s)
    else (.ok (), { s with records := s.records.erase k, deletes := s.deletes + 1 })

end Memory

end InitLock.Store
