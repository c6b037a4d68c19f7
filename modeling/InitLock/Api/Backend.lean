import InitLock.Api.Machines
import InitLock.Api.Records
import InitLock.Mutex.Run

/-!
# Calls on the server

The backend of a mutex whose records and machines are objects on the server.
-/

namespace InitLock.Api

open Mutex

variable {σ : Type}

/-- A link to the server and the resource that serves machines, if it is kept. -/
structure Remote (σ : Type) where
  link : Link σ
  kept : Option Resource

namespace Remote

/-- Does something over the link; what is reported meanwhile comes with the result. -/
def perform {α : Type} (action : Action σ α) (s : Remote σ) : α × List Log.Line × Remote σ :=
  let (a, link) := action { s.link with events := [] }
  (a, link.events.map Event.line, { s with link := { link with events := [] } })

def alive (server : Server σ) (ns machine : String) (s : Remote σ) :
    Except Error Bool × List Log.Line × Remote σ :=
  let ((answer, kept), lines, s) := s.perform (Machines.alive server ns machine s.kept)
  (answer, lines, { s with kept })

def reply {α : Type} : α × List Log.Line × Remote σ → Reply α × Remote σ
  | (a, lines, s) => (⟨some a, false, lines⟩, s)

/-- The backend; `manager` is the field manager under which records are created. -/
def backend (server : Server σ) (manager : String) : Backend (Remote σ) := fun q s =>
  match q with
  | .read key => reply (s.perform (Records.read server key))
  | .create r => reply (s.perform (Records.create server manager r))
  | .delete key uid => reply (s.perform (Records.delete server key uid))
  | .alive ns machine => reply (s.alive server ns machine)

end Remote

end InitLock.Api
