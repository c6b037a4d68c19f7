import InitLock.Mutex.Local

/-!
# Interleaved calls

Several calls on one store in memory, each in a process of its own. A schedule
says which call takes its next turn and what befalls its question; between
turns tokens fire, machines come and go and records are put into the store
directly. The first turn of a call begins it and stops at its first question. A
turn of a call that has ended does nothing.
-/

namespace InitLock.Mutex

/-- One of the calls: not begun while it has no stage. -/
structure Actor where
  task : Task
  fired : Bool
  stage : Option Stage
  deriving DecidableEq

inductive Move where
  | turn (actor : Nat) (fate : Fate := .arrives)
  | fire (actor : Nat)
  | kill (ns machine : String)
  | revive (ns machine : String)
  | insert (record : Record)
  deriving DecidableEq

/-- What a turn brought: nothing if the call had ended, or does not exist. -/
structure Report where
  actor : Nat
  brought : Option (Run Local)

/-- The calls and what they work on. -/
structure Interleaving where
  actors : List Actor
  shared : Local

namespace Interleaving

/-- A turn of a call, none if it has ended. -/
def advance (fate : Fate) (a : Actor) (s : Local) : Option (Run Local) :=
  match a.stage with
  | none =>
    let r := Run.begin a.task a.fired s
    some (if r.call.isOpen && r.noticed then r.cancel else r)
  | some stage =>
    let r : Run Local := ⟨⟨a.task, stage⟩, [], [], a.fired, s⟩
    if r.call.isOpen then some (r.turn (Local.backendUnder fate)) else none

def modify (w : Interleaving) (i : Nat) (f : Actor → Actor) : Interleaving :=
  { w with actors := w.actors.modify i f }

/-- A turn of the call number `i`. -/
def turn (w : Interleaving) (i : Nat) (fate : Fate) : Report × Interleaving :=
  match w.actors[i]?.bind fun a => advance fate a w.shared with
  | none => (⟨i, none⟩, w)
  | some r =>
    (⟨i, some r⟩,
      { w.modify i fun a => { a with stage := some r.call.stage } with shared := r.state })

def withMachines (w : Interleaving) (f : Liveness → Liveness) : Interleaving :=
  { w with shared := { w.shared with machines := f w.shared.machines } }

/-- One step; only turns report. -/
def step (w : Interleaving) : Move → Option Report × Interleaving
  | .turn i fate => (w.turn i fate).map some id
  | .fire i => (none, w.modify i fun a => { a with fired := true })
  | .kill ns machine => (none, w.withMachines fun l => l.remove ns machine)
  | .revive ns machine => (none, w.withMachines fun l => l.add ns machine)
  | .insert r => (none, { w with shared := { w.shared with store := (w.shared.store.insert r).2 } })

def follow (w : Interleaving) : List Move → List Report × Interleaving
  | [] => ([], w)
  | m :: ms =>
    let (report, w) := w.step m
    let (reports, w) := w.follow ms
    (report.toList ++ reports, w)

def isUnfinished (w : Interleaving) (i : Nat) : Bool :=
  match w.actors[i]? with
  | some ⟨task, _, some stage⟩ => Call.isOpen ⟨task, stage⟩
  | some ⟨_, _, none⟩ => true
  | none => false

/-- Runs the call number `i` to its end, in at most `fuel` turns. -/
def drain (i : Nat) : Nat → Interleaving → List Report × Interleaving
  | 0, w => ([], w)
  | fuel + 1, w =>
    if w.isUnfinished i then
      let (report, w) := w.turn i .arrives
      let (reports, w) := drain i fuel w
      (report :: reports, w)
    else ([], w)

/-- A schedule, and after it the remaining turns of each call in order. -/
def complete (w : Interleaving) (schedule : List Move) : List Report × Interleaving :=
  (List.range w.actors.length).foldl
    (fun (reports, w) i =>
      let (more, w) := drain i 6 w
      (reports ++ more, w))
    (w.follow schedule)

end Interleaving

end InitLock.Mutex
