import InitLock.Mutex.Call

/-!
# Running calls

A backend answers the questions of calls and keeps a state between them. A turn
of a call puts its open question to the backend and takes the call to its next
stage; if the call can be cancelled and its token has fired, the turn ends it
instead. A call asks five questions at most, so five turns run it to its end.
-/

namespace InitLock.Mutex

/-- A question and the answer to it, if any came. -/
structure Exchange where
  question : Question
  answer : Option question.Answer

/-- What a backend does on a question: its answer if any comes, whether the caller's token fires
meanwhile, and what it reports. -/
structure Reply (α : Type) where
  answer : Option α
  fires : Bool
  lines : List Log.Line

abbrev Backend (σ : Type) := (q : Question) → σ → Reply q.Answer × σ

/-- A line of a call's log: an event of its own, or a line of the backend. -/
inductive Entry where
  | own (event : Event)
  | backend (line : Log.Line)
  deriving DecidableEq

def Entry.line : Entry → Log.Line
  | own event => event.line
  | backend line => line

/-- What a run of a call has brought so far. -/
structure Run (σ : Type) where
  call : Call
  entries : List Entry
  exchanges : List Exchange
  fired : Bool
  state : σ

namespace Run

variable {σ : Type}

def begin (t : Task) (fired : Bool) (s : σ) : Run σ where
  call := ⟨t, t.start.2⟩
  entries := t.start.1.map .own
  exchanges := []
  fired := fired
  state := s

/-- Whether the call is to notice that its token has fired. -/
def noticed (r : Run σ) : Bool := r.fired && r.call.task.cancellable

def goTo (r : Run σ) (events : List Event) (stage : Stage) : Run σ :=
  { r with call := { r.call with stage }, entries := r.entries ++ events.map .own }

/-- Ends the call because its token has fired. -/
def cancel (r : Run σ) : Run σ :=
  r.goTo [.cancelled r.call.task.operation] (.ended .cancelled)

def turn (b : Backend σ) (r : Run σ) : Run σ :=
  match r.call.task.next r.call.stage with
  | .ended _ => r
  | .stalled => r
  | .asks q resume =>
    if r.noticed then r.cancel
    else
      let (reply, s) := b q r.state
      let r : Run σ :=
        { r with
          entries := r.entries ++ reply.lines.map .backend
          exchanges := r.exchanges ++ [⟨q, reply.answer⟩]
          fired := r.fired || reply.fires
          state := s }
      match reply.answer with
      | some a => r.goTo (resume a).1 (resume a).2
      | none => if r.noticed then r.cancel else r.goTo [] .stalled

def turns (b : Backend σ) : Nat → Run σ → Run σ
  | 0, r => r
  | n + 1, r => turns b n (r.turn b)

/-- A call from its beginning to its end. -/
def complete (b : Backend σ) (t : Task) (fired : Bool) (s : σ) : Run σ :=
  (begin t fired s).turns b 5

end Run

end InitLock.Mutex
