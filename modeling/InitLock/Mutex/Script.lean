import InitLock.Mutex.Run

/-!
# Calls on prepared answers

A backend that answers from lists, one for each kind of question. A prepared
answer may fire the caller's token, and may never come. An exhausted list
answers with an error.
-/

namespace InitLock.Mutex

/-- A prepared answer; none if no answer is to come. -/
structure Prepared (α : Type) where
  answer : Option α
  fires : Bool

structure Script where
  reads : List (Prepared (Except StoreError Record))
  creates : List (Prepared (Except StoreError Unit))
  deletes : List (Prepared (Except StoreError Unit))
  alives : List (Prepared (Except Error Bool))

namespace Script

def exhausted : Error := .internal "script exhausted" Error.unknownContext

def pop {ε α : Type} (none : ε) :
    List (Prepared (Except ε α)) → Reply (Except ε α) × List (Prepared (Except ε α))
  | [] => (⟨some (.error none), false, []⟩, [])
  | p :: ps => (⟨p.answer, p.fires, []⟩, ps)

def backend : Backend Script := fun q s =>
  match q with
  | .read _ =>
    let (reply, reads) := pop (.other exhausted) s.reads
    (reply, { s with reads })
  | .create _ =>
    let (reply, creates) := pop (.other exhausted) s.creates
    (reply, { s with creates })
  | .delete _ _ =>
    let (reply, deletes) := pop (.other exhausted) s.deletes
    (reply, { s with deletes })
  | .alive _ _ =>
    let (reply, alives) := pop exhausted s.alives
    (reply, { s with alives })

end Script

end InitLock.Mutex
