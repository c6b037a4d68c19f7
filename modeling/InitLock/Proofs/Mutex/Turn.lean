import InitLock.Mutex.Interleaving
import InitLock.Proofs.Mutex.Protocol
import InitLock.Proofs.Store.Memory

/-!
# What a step of a schedule does

`Advances` says what a turn makes of a call: it begins, it notices that it was
cancelled, or its question meets its fate and the answer leads to the next
stage. `Stepped` lists all that a move can make of an interleaving. Proofs about
interleavings go by cases on the two and never unfold a turn.
-/

namespace InitLock.Mutex

namespace Actor

def outcome? (a : Actor) : Option Outcome :=
  a.stage.bind fun stage => Call.outcome? ⟨a.task, stage⟩

def noticed (a : Actor) : Bool := a.fired && a.task.cancellable

def goTo (a : Actor) (stage : Stage) : Actor := { a with stage := some stage }

def first (a : Actor) (s : Local) : Run Local :=
  if Call.isOpen ⟨a.task, a.task.start.2⟩ && a.noticed then (Run.begin a.task a.fired s).cancel
  else Run.begin a.task a.fired s

end Actor

theorem Actor.stage_of_outcome? {a : Actor} {o : Outcome} (h : a.outcome? = some o) :
    a.stage = some (.ended o) := by
  obtain ⟨stage, hs, ho⟩ := Option.bind_eq_some_iff.1 h
  cases stage with
  | ended o' => cases ho; exact hs
  | reading | creating | rereading | checking | deleting | stalled => cases ho

/-! ## Turns -/

/-- A question of the given fate and its answer, in a state and with the state after it. -/
structure Meets (fate : Fate) (s : Local) (x : Exchange) (s' : Local) : Prop where
  answer : x.answer = some (s.meet fate x.question).1
  state : s' = (s.meet fate x.question).2

/-- What a turn of a call does. -/
inductive Advances (fate : Fate) (a : Actor) (s : Local) : Run Local → Prop
  | begun (h : a.stage = none) : Advances fate a s (a.first s)
  | cancelled {stage : Stage} (h : a.stage = some stage)
    (hopen : Call.isOpen ⟨a.task, stage⟩ = true) (hn : a.noticed = true) :
    Advances fate a s
      ⟨⟨a.task, .ended .cancelled⟩, [.own (.cancelled a.task.operation)], [], a.fired, s⟩
  | asked {stage stage' : Stage} {x : Exchange} {es : List Event} {s' : Local}
    (h : a.stage = some stage) (hn : a.noticed = false) (hl : a.task.Leads stage x es stage')
    (hm : Meets fate s x s') :
    Advances fate a s ⟨⟨a.task, stage'⟩, es.map .own, [x], a.fired, s'⟩

theorem next_of_isOpen {t : Task} {stage : Stage} (h : Call.isOpen ⟨t, stage⟩ = true) :
    ∃ q resume, t.next stage = .asks q resume := by
  cases stage with
  | reading | creating | rereading | checking | deleting => exact ⟨_, _, rfl⟩
  | stalled | ended => cases h

theorem Call.isOpen_iff {t : Task} {stage : Stage} :
    Call.isOpen ⟨t, stage⟩ = true ↔ ∃ q resume, t.next stage = .asks q resume := by
  refine ⟨next_of_isOpen, fun ⟨q, resume, h⟩ => ?_⟩
  cases stage with
  | reading | creating | rereading | checking | deleting => rfl
  | stalled | ended => cases h

theorem Task.Leads.isOpen {t : Task} {stage stage' : Stage} {x : Exchange} {es : List Event}
    (h : t.Leads stage x es stage') : Call.isOpen ⟨t, stage⟩ = true := by
  cases h <;> rfl

theorem advances_of_advance {fate : Fate} {a : Actor} {s : Local} {r : Run Local}
    (h : Interleaving.advance fate a s = some r) : Advances fate a s r := by
  unfold Interleaving.advance at h
  split at h
  · next hstage =>
    cases h
    exact .begun hstage
  · next stage hstage =>
    dsimp only at h
    split at h
    · next hopen =>
      obtain ⟨q, resume, hq⟩ := next_of_isOpen hopen
      cases h
      by_cases hn : a.noticed = true
      · have hturn : Run.turn (Local.backendUnder fate) ⟨⟨a.task, stage⟩, [], [], a.fired, s⟩ =
            ⟨⟨a.task, .ended .cancelled⟩, [.own (.cancelled a.task.operation)], [], a.fired,
              s⟩ := by
          simp only [Run.turn, hq]
          exact if_pos hn
        rw [hturn]
        exact .cancelled hstage hopen hn
      · rw [Bool.not_eq_true] at hn
        have hturn : Run.turn (Local.backendUnder fate) ⟨⟨a.task, stage⟩, [], [], a.fired, s⟩ =
            ⟨⟨a.task, (resume (s.meet fate q).1).2⟩, (resume (s.meet fate q).1).1.map .own,
              [⟨q, some (s.meet fate q).1⟩], a.fired, (s.meet fate q).2⟩ := by
          simp only [Run.turn, hq]
          rw [if_neg (by rw [Run.noticed]; exact Bool.eq_false_iff.1 hn)]
          simp only [Local.backendUnder, Run.goTo, List.map_nil, List.append_nil, List.nil_append,
            Bool.or_false]
        rw [hturn]
        exact .asked hstage hn (Task.leads hq _) ⟨rfl, rfl⟩
    · cases h

theorem advance_eq_none {fate : Fate} {a : Actor} {s : Local}
    (h : Interleaving.advance fate a s = none) :
    ∃ stage, a.stage = some stage ∧ Call.isOpen ⟨a.task, stage⟩ = false := by
  unfold Interleaving.advance at h
  split at h
  · cases h
  · next stage hstage =>
    dsimp only at h
    split at h
    · cases h
    · next hopen => exact ⟨stage, hstage, Bool.eq_false_iff.2 hopen⟩

section
variable {fate : Fate} {a : Actor} {s : Local} {r : Run Local}

@[simp] theorem Actor.first_state : (a.first s).state = s := by
  unfold first
  split <;> rfl

@[simp] theorem Actor.first_exchanges : (a.first s).exchanges = [] := by
  unfold first
  split <;> rfl

theorem Actor.first_stage : (a.first s).call.stage = a.task.start.2 ∨
    (a.noticed = true ∧ Call.isOpen ⟨a.task, a.task.start.2⟩ = true ∧
      (a.first s).call.stage = .ended .cancelled) := by
  by_cases h : (Call.isOpen ⟨a.task, a.task.start.2⟩ && a.noticed) = true
  · refine .inr ⟨(Bool.and_eq_true_iff.1 h).2, (Bool.and_eq_true_iff.1 h).1, ?_⟩
    rw [first, if_pos h]
    rfl
  · rw [first, if_neg h]
    exact .inl rfl

def Actor.Fits (a : Actor) : Prop := ∀ stage, a.stage = some stage → a.task.Fits stage

theorem Advances.fits (h : Advances fate a s r) (ha : a.Fits) :
    (a.goTo r.call.stage).Fits := by
  intro stage' hstage
  cases hstage
  cases h with
  | begun =>
    rcases a.first_stage (s := s) with h | ⟨_, _, h⟩ <;> rw [h]
    · exact a.task.fits_start
    · exact trivial
  | cancelled => exact trivial
  | asked h _ hl => exact hl.fits (ha _ h)

end

/-! ## What an answer says about the store -/

namespace Meets

variable {fate : Fate} {s s' : Local} {k k' : Key} {r : Record}

theorem read_state {answer : Option (Except StoreError Record)}
    (h : Meets fate s ⟨.read k, answer⟩ s') : s' = s := by
  rw [h.state]
  cases fate <;> rfl

theorem read_ok (h : Meets fate s ⟨.read k, some (.ok r)⟩ s') :
    s.store.records.get? k = some r := by
  have hread : s.store.read k = .ok r := by
    have h := Option.some.inj h.answer
    cases fate with
    | arrives | told => exact h.symm
    | lost | refused => cases h
  unfold Store.Memory.read at hread
  split at hread
  · next hr => cases hread; exact hr
  · cases hread

theorem read_notFound (h : Meets fate s ⟨.read k, some (.error (.notFound k'))⟩ s') :
    s.store.records.get? k = none := by
  have hread : s.store.read k = .error (.notFound k') := by
    have h := Option.some.inj h.answer
    cases fate with
    | arrives | told => exact h.symm
    | lost | refused => cases h
  unfold Store.Memory.read at hread
  split at hread
  · cases hread
  · next hnone => exact hnone

theorem arrived {q : Question} {a : q.Answer} (h : Meets .arrives s ⟨q, some a⟩ s') :
    s.answer q = (a, s') := by
  have ha : a = (s.answer q).1 := Option.some.inj h.answer
  rw [ha, h.state]
  rfl

theorem create_answer {a : Except StoreError Unit} (ha : ∀ e, a ≠ .error (.other e))
    (h : Meets fate s ⟨.create r, some a⟩ s') : s.store.create r = (a, s'.store) := by
  have hstate := h.state
  have h := Option.some.inj h.answer
  cases fate with
  | arrives | told => rw [hstate, h]; rfl
  | lost | refused => exact absurd h (ha _)

theorem deleted {u : Option String} {a : Except StoreError Unit}
    (h : Meets .arrives s ⟨.delete k u, some a⟩ s') : s.store.delete k u = (a, s'.store) :=
  congrArg (fun p => (p.1, p.2.store)) h.arrived

theorem read_error {e : StoreError} (h : Meets .arrives s ⟨.read k, some (.error e)⟩ s') :
    e = .notFound k := by
  have hread : s.store.read k = .error e := congrArg Prod.fst h.arrived
  unfold Store.Memory.read at hread
  split at hread
  · cases hread
  · cases hread; rfl

theorem create_error {e : StoreError} (h : Meets .arrives s ⟨.create r, some (.error e)⟩ s')
    (hns : r.ns ≠ "") (hname : r.name ≠ "") :
    e = .alreadyExists r.key ∧ (∃ other, s.store.records.get? r.key = some other) ∧ s' = s := by
  have hc := s.store.created r
  have ha := h.arrived
  simp only [Local.answer] at ha
  generalize s.store.create r = o at hc ha
  cases hc with
  | unnamed _ hun =>
    rcases hun with hun | hun
    · exact absurd hun hns
    · exact absurd hun hname
  | taken other ho => cases ha; exact ⟨rfl, ⟨other, ho⟩, rfl⟩
  | ok => cases ha

theorem alive_ok {ns machine : String} {b : Bool}
    (h : Meets .arrives s ⟨.alive ns machine, some (.ok b)⟩ s') :
    s.machines.alive ns machine = b ∧ s' = s := by
  have h := h.arrived
  cases h
  exact ⟨rfl, rfl⟩

theorem create_ok (h : Meets fate s ⟨.create r, some (.ok ())⟩ s') :
    s.store.records.get? r.key = none ∧
      s'.store = { s.store.store r with creates := s.store.creates + 1 } := by
  have hc := s.store.created r
  rw [h.create_answer (by simp)] at hc
  generalize s'.store = t at hc
  cases hc with
  | ok _ _ h => exact ⟨h, rfl⟩

end Meets

/-! ## Steps -/

namespace Interleaving

def settle (w : Interleaving) (i : Nat) (r : Run Local) : Interleaving :=
  { w.modify i fun a => a.goTo r.call.stage with shared := r.state }

/-- What a move does. -/
inductive Stepped (w : Interleaving) : Move → Option Report × Interleaving → Prop
  | idle (i : Nat) (fate : Fate)
    (h : ∀ a, w.actors[i]? = some a →
      ∃ stage, a.stage = some stage ∧ Call.isOpen ⟨a.task, stage⟩ = false) :
    Stepped w (.turn i fate) (some ⟨i, none⟩, w)
  | turn (i : Nat) (fate : Fate) {a : Actor} {r : Run Local} (ha : w.actors[i]? = some a)
    (hr : Advances fate a w.shared r) :
    Stepped w (.turn i fate) (some ⟨i, some r⟩, w.settle i r)
  | fire (i : Nat) : Stepped w (.fire i) (none, w.modify i fun a => { a with fired := true })
  | kill (ns machine : String) :
    Stepped w (.kill ns machine) (none, w.withMachines fun l => l.remove ns machine)
  | revive (ns machine : String) :
    Stepped w (.revive ns machine) (none, w.withMachines fun l => l.add ns machine)
  | insert (r : Record) :
    Stepped w (.insert r)
      (none, { w with shared := { w.shared with store := w.shared.store.store r } })

theorem stepped (w : Interleaving) (m : Move) : Stepped w m (w.step m) := by
  cases m with
  | turn i fate =>
    show Stepped w _ ((w.turn i fate).map some id)
    unfold Interleaving.turn
    split
    · next h =>
      refine .idle i fate fun a ha => ?_
      rw [ha] at h
      exact advance_eq_none h
    · next r h =>
      obtain ⟨a, ha, hr⟩ := Option.bind_eq_some_iff.1 h
      exact .turn i fate ha (advances_of_advance hr)
  | fire i => exact .fire i
  | kill ns machine => exact .kill ns machine
  | revive ns machine => exact .revive ns machine
  | insert r => exact .insert r

theorem getElem?_settle (w : Interleaving) (i : Nat) (r : Run Local) (j : Nat) :
    (w.settle i r).actors[j]? =
      if i = j then w.actors[j]?.map (·.goTo r.call.stage) else w.actors[j]? := by
  simp only [settle, modify, List.getElem?_modify]
  split <;> simp

theorem getElem?_fire (w : Interleaving) (i j : Nat) :
    (w.modify i fun a => { a with fired := true }).actors[j]? =
      w.actors[j]?.map fun a => if i = j then { a with fired := true } else a := by
  simp only [modify, List.getElem?_modify]
  split <;> simp

end Interleaving

end InitLock.Mutex
