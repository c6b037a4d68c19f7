import InitLock.Mutex.Run
import InitLock.Store.Memory

/-!
# Calls on the store in memory

The backend of a store in memory and a fixed list of machines. What befalls a
question on its way is its fate: the answer may arrive, or be lost with or
without the effect of the question, and the one who is asked for a machine may
tell something else.
-/

namespace InitLock

/-! ## Known machines -/

/-- The machines that exist, by namespace and name. -/
structure Liveness where
  machines : List Key
  deriving DecidableEq, Repr, Inhabited

namespace Liveness

def empty : Liveness := ⟨[]⟩

def alive (l : Liveness) (ns machine : String) : Bool := l.machines.contains ⟨ns, machine⟩

def add (l : Liveness) (ns machine : String) : Liveness :=
  if l.alive ns machine then l else ⟨⟨ns, machine⟩ :: l.machines⟩

def remove (l : Liveness) (ns machine : String) : Liveness :=
  ⟨l.machines.filter (· ≠ ⟨ns, machine⟩)⟩

end Liveness

namespace Mutex

/-! ## Questions and their fate -/

/-- What befalls a question. -/
inductive Fate where
  /-- Its answer arrives. -/
  | arrives
  /-- It is asked, but this error arrives in place of the answer. -/
  | lost (error : Error)
  /-- It is not asked, and this error arrives. -/
  | refused (error : Error)
  /-- Whether a machine exists is answered like this, whatever the machines. -/
  | told (alive : Bool)
  deriving DecidableEq

/-- A store in memory and the machines that exist. -/
structure Local where
  store : Store.Memory
  machines : Liveness
  deriving DecidableEq, Inhabited

namespace Local

def empty : Local := ⟨.empty, .empty⟩

def answer (q : Question) (s : Local) : q.Answer × Local :=
  match q with
  | .read key => (s.store.read key, s)
  | .create r =>
    let (a, store) := s.store.create r
    (a, { s with store })
  | .delete key uid =>
    let (a, store) := s.store.delete key uid
    (a, { s with store })
  | .alive ns holder => (.ok (s.machines.alive ns holder), s)

/-- The answer to a question with a fate, and the state after it. -/
def meet (fate : Fate) (q : Question) (s : Local) : q.Answer × Local :=
  match fate with
  | .arrives => s.answer q
  | .told alive =>
    match q with
    | .alive _ _ => (.ok alive, s)
    | q => s.answer q
  | .lost e => (q.failure e, (s.answer q).2)
  | .refused e => (q.failure e, s)

/-- The backend for questions of one fate: every question is answered at once. -/
def backendUnder (fate : Fate) : Backend Local := fun q s =>
  let (a, s) := s.meet fate q
  (⟨some a, false, []⟩, s)

/-- The backend whose answers arrive. -/
def backend : Backend Local := backendUnder .arrives

end Local

end Mutex

end InitLock
