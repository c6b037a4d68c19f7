import InitLock.Proofs.Mutex.Turn
import InitLock.Proofs.Payload

/-!
# Calls that run alone

What a call makes of a store in memory while nobody else asks anything. `Asks`
lists the questions that take a call from one stage to another; five turns are
enough for as many questions (`Local.call_of_asks`). From that follows how each
operation ends on a key without a record, on a record that names a machine, and
on one that names none.
-/

namespace InitLock

/-- The machine a question is about, if it is about one. -/
def Question.lookup? : Question → Option Key
  | .alive ns holder => some ⟨ns, holder⟩
  | .read _ | .create _ | .delete _ _ => none

namespace Mutex

open Store (Memory)

/-- From one stage to another a call asks these questions, while nobody else asks any. -/
inductive Task.Asks (t : Task) : Stage → Local → List Question → Stage → Local → Prop
  | done (stage : Stage) (s : Local) : Asks t stage s [] stage s
  | ask {stage stage' : Stage} {s s' : Local} {q : Question} {qs : List Question}
    {resume : q.Answer → List Event × Stage} (hq : t.next stage = .asks q resume)
    (h : Asks t (resume (s.answer q).1).2 (s.answer q).2 qs stage' s') :
    Asks t stage s (q :: qs) stage' s'

/-- What a call brings: how it ended, and the machines it asked after. -/
structure Finding where
  outcome : Option Outcome
  lookups : List Key
  deriving DecidableEq

/-- What a call brings that runs alone, and the state after it. -/
def Local.call (t : Task) (s : Local) : Finding × Local :=
  let r := Run.complete Local.backend t false s
  (⟨r.call.outcome?, r.exchanges.filterMap fun e => e.question.lookup?⟩, r.state)

/-! ## Turns -/

theorem Run.turn_ended {σ : Type} (b : Backend σ) {r : Run σ} {o : Outcome}
    (h : r.call.stage = .ended o) : r.turn b = r := by
  unfold turn
  rw [h]
  rfl

theorem Run.turns_ended {σ : Type} (b : Backend σ) {r : Run σ} {o : Outcome}
    (h : r.call.stage = .ended o) (n : Nat) : r.turns b n = r := by
  induction n with
  | zero => rfl
  | succ n ih =>
    rw [turns, turn_ended b h]
    exact ih

theorem Run.turn_asks {r : Run Local} {q : Question} {resume : q.Answer → List Event × Stage}
    (hq : r.call.task.next r.call.stage = .asks q resume) (hf : r.fired = false) :
    r.turn Local.backend =
      ⟨⟨r.call.task, (resume (r.state.answer q).1).2⟩,
        r.entries ++ (resume (r.state.answer q).1).1.map .own,
        r.exchanges ++ [⟨q, some (r.state.answer q).1⟩], false, (r.state.answer q).2⟩ := by
  have hn : r.noticed = false := by rw [noticed, hf, Bool.false_and]
  unfold turn
  simp only [hq, hn]
  simp [Local.backend, Local.backendUnder, Local.meet, goTo, hf]

theorem Task.Asks.turns {t : Task} {stage : Stage} {s s' : Local} {qs : List Question}
    {o : Outcome} (h : t.Asks stage s qs (.ended o) s') {n : Nat} (hn : qs.length ≤ n)
    {r : Run Local} (hcall : r.call = ⟨t, stage⟩) (hf : r.fired = false) (hs : r.state = s) :
    (r.turns Local.backend n).call = ⟨t, .ended o⟩ ∧
      (r.turns Local.backend n).exchanges.map (·.question) = r.exchanges.map (·.question) ++ qs ∧
      (r.turns Local.backend n).state = s' := by
  generalize hend : Stage.ended o = stage' at h
  induction h generalizing n r with
  | done =>
    subst hend
    rw [Run.turns_ended Local.backend (o := o) (by rw [hcall])]
    exact ⟨hcall, (List.append_nil _).symm, hs⟩
  | @ask stage stage' s s' q qs resume hq _ ih =>
    obtain ⟨n, rfl⟩ : ∃ m, n = m + 1 := ⟨n - 1, by simp only [List.length_cons] at hn; omega⟩
    subst hs
    have hasks : r.call.task.next r.call.stage = .asks q resume := by rw [hcall]; exact hq
    have hturn := Run.turn_asks hasks hf
    obtain ⟨hcall', hasked, hs'⟩ := ih (Nat.le_of_succ_le_succ hn) (r := r.turn Local.backend)
      (by rw [hturn, hcall]) (by rw [hturn]) (by rw [hturn]) hend
    refine ⟨hcall', ?_, hs'⟩
    rw [Run.turns, hasked, hturn]
    simp

/-- A call that is led by its questions to its end is run to it. -/
theorem Local.call_of_asks {t : Task} {s s' : Local} (qs : List Question) {o : Outcome}
    (h : t.Asks t.start.2 s qs (.ended o) s') (hn : qs.length ≤ 5) :
    s.call t = (⟨some o, qs.filterMap Question.lookup?⟩, s') := by
  obtain ⟨hcall, hasked, hs⟩ := h.turns hn (r := Run.begin t false s) rfl rfl rfl
  have hlookups : (Run.complete Local.backend t false s).exchanges.filterMap
      (fun e => e.question.lookup?) = qs.filterMap Question.lookup? := by
    have := congrArg (List.filterMap Question.lookup?) hasked
    rwa [List.filterMap_map] at this
  simp only [call, hlookups, Prod.mk.injEq, Finding.mk.injEq, and_true]
  exact ⟨congrArg Call.outcome? hcall, hs⟩

/-! ## The first read -/

section
variable {t : Task} {s s' : Local} {r : Record} {o : Outcome}
  {holder : String}

/-- A call on a key without a record goes on as one that has found none. -/
theorem Local.call_of_none (qs : List Question) (ht : t.operation ≠ .lock "")
    (h : s.store.records.get? t.key = none)
    (hj : t.Asks (t.afterRead (.error (.notFound t.key))).2 s qs (.ended o) s')
    (hn : qs.length ≤ 4) : s.call t = (⟨some o, qs.filterMap Question.lookup?⟩, s') := by
  have hread : s.answer (.read t.key) = (.error (.notFound t.key), s) := by
    simp only [answer, Memory.read, h]
  refine call_of_asks (.read t.key :: qs) ?_ (Nat.succ_le_succ hn)
  rw [Task.start_eq_reading ht]
  refine .ask rfl ?_
  rw [hread]
  exact hj

/-- A call on a key with a record goes on as one that has read it. -/
theorem Local.call_of_some (qs : List Question) (ht : t.operation ≠ .lock "")
    (h : s.store.records.get? t.key = some r)
    (hj : t.Asks (t.afterRead (.ok r)).2 s qs (.ended o) s') (hn : qs.length ≤ 4) :
    s.call t = (⟨some o, qs.filterMap Question.lookup?⟩, s') := by
  have hread : s.answer (.read t.key) = (.ok r, s) := by
    simp only [answer, Memory.read, h]
  refine call_of_asks (.read t.key :: qs) ?_ (Nat.succ_le_succ hn)
  rw [Task.start_eq_reading ht]
  refine .ask rfl ?_
  rw [hread]
  exact hj

theorem Task.afterRead_of_lock (ht : t.operation = .lock t.machine) :
    t.afterRead (.ok r) = judge t.machine r ∧
      t.afterRead (.error (.notFound t.key)) = ([.attempting], .creating) := by
  unfold afterRead
  rw [ht]
  exact ⟨rfl, rfl⟩

/-! ## Stores after a call -/

def Local.withCreated (s : Local) (r : Record) : Local :=
  { s with store := { s.store.store r with creates := s.store.creates + 1 } }

def Local.withDeleted (s : Local) (k : Key) : Local :=
  { s with store := { s.store with
      records := s.store.records.erase k
      deletes := s.store.deletes + 1 } }

theorem Local.create_of_none (hns : r.ns ≠ "") (hname : r.name ≠ "")
    (h : s.store.records.get? r.key = none) : s.answer (.create r) = (.ok (), s.withCreated r) := by
  have hc : s.store.create r =
      (.ok (), { s.store.store r with creates := s.store.creates + 1 }) := by
    simp only [Memory.create, hns, hname, or_self, ↓reduceIte, h]
    rfl
  simp only [answer, hc, withCreated]

theorem Local.delete_of_get? (h : s.store.records.get? r.key = some r) :
    s.answer (.delete r.key r.uid) = (.ok (), s.withDeleted r.key) := by
  simp only [answer, Memory.delete, h, ne_eq, not_true_eq_false, and_false, ↓reduceIte, withDeleted]

/-! ## Lock calls -/

theorem Local.call_nameless (h : t.operation = .lock "") :
    s.call t = (⟨some (.answered false), []⟩, s) := by
  have hstart : t.start.2 = Task.answer false := by
    unfold Task.start
    rw [h]
    rfl
  refine call_of_asks [] ?_ (Nat.zero_le _)
  rw [hstart]
  exact .done _ _

theorem Local.call_lock_vacant (ht : t.Locks) (hns : t.newRecord.ns ≠ "")
    (hname : t.newRecord.name ≠ "") (h : s.store.records.get? t.key = none) :
    s.call t = (⟨some (.answered true), []⟩, s.withCreated t.newRecord) := by
  refine call_of_none [.create t.newRecord] ht.ne_nameless h ?_ (by simp)
  rw [(Task.afterRead_of_lock (r := t.newRecord) ht.operation).2]
  refine .ask rfl ?_
  rw [create_of_none hns hname h]
  exact .done _ _

theorem Local.call_lock_malformed (ht : t.Locks) (h : s.store.records.get? t.key = some r)
    {m : Record.Malformed} (hr : r.holder = .error m) :
    s.call t = (⟨some (.answered false), []⟩, s) := by
  refine call_of_some [] ht.ne_nameless h ?_ (by simp)
  rw [(Task.afterRead_of_lock ht.operation).1]
  simp only [Task.judge, hr]
  exact .done _ _

theorem Local.call_lock_held (ht : t.Locks) (h : s.store.records.get? t.key = some r)
    (hr : r.holder = .ok t.machine) : s.call t = (⟨some (.answered true), []⟩, s) := by
  refine call_of_some [] ht.ne_nameless h ?_ (by simp)
  rw [(Task.afterRead_of_lock ht.operation).1]
  simp only [Task.judge, hr, ↓reduceIte]
  exact .done _ _

theorem Local.call_lock_alive (ht : t.Locks) (h : s.store.records.get? t.key = some r)
    (hr : r.holder = .ok holder) (hne : holder ≠ t.machine)
    (ha : s.machines.alive t.lookupNs holder = true) :
    s.call t = (⟨some (.answered false), [⟨t.lookupNs, holder⟩]⟩, s) := by
  refine call_of_some [.alive t.lookupNs holder] ht.ne_nameless h ?_ (by simp)
  rw [(Task.afterRead_of_lock ht.operation).1]
  simp only [Task.judge, hr, hne, ↓reduceIte]
  refine .ask rfl ?_
  simp only [answer, ha]
  exact .done _ _

/-- A lock call on the record of another machine that does not exist removes it, and does not
create one. -/
theorem Local.call_lock_gone (ht : t.Locks) (h : s.store.records.get? t.key = some r)
    (hk : r.key = t.key) (hr : r.holder = .ok holder) (hne : holder ≠ t.machine)
    (ha : s.machines.alive t.lookupNs holder = false) :
    s.call t = (⟨some (.answered false), [⟨t.lookupNs, holder⟩]⟩, s.withDeleted t.key) := by
  refine call_of_some [.alive t.lookupNs holder, .delete r.key r.uid] ht.ne_nameless h ?_ (by simp)
  rw [(Task.afterRead_of_lock ht.operation).1]
  simp only [Task.judge, hr, hne, ↓reduceIte]
  refine .ask rfl ?_
  simp only [answer, ha]
  refine .ask rfl ?_
  rw [delete_of_get? (hk ▸ h), hk]
  exact .done _ _

/-! ## Unlock calls and inspections -/

theorem Local.call_unlock_vacant (ht : t.operation = .unlock)
    (h : s.store.records.get? t.key = none) : s.call t = (⟨some (.answered true), []⟩, s) := by
  refine call_of_none [] (by rw [ht]; nofun) h ?_ (by simp)
  simp only [Task.afterRead, ht]
  exact .done _ _

theorem Local.call_unlock_some (ht : t.operation = .unlock)
    (h : s.store.records.get? t.key = some r) (hk : r.key = t.key) :
    s.call t = (⟨some (.answered true), []⟩, s.withDeleted t.key) := by
  refine call_of_some [.delete r.key r.uid] (by rw [ht]; nofun) h ?_ (by simp)
  simp only [Task.afterRead, ht]
  refine .ask rfl ?_
  rw [delete_of_get? (hk ▸ h), hk]
  exact .done _ _

theorem Local.call_inspect_vacant (ht : t.operation = .inspect)
    (h : s.store.records.get? t.key = none) :
    s.call t = (⟨some (.observed .unlocked), []⟩, s) := by
  refine call_of_none [] (by rw [ht]; nofun) h ?_ (by simp)
  simp only [Task.afterRead, ht]
  exact .done _ _

theorem Local.call_inspect_held (ht : t.operation = .inspect)
    (h : s.store.records.get? t.key = some r) (hr : r.holder = .ok holder) :
    s.call t = (⟨some (.observed (.held holder)), []⟩, s) := by
  refine call_of_some [] (by rw [ht]; nofun) h ?_ (by simp)
  simp only [Task.afterRead, ht, hr]
  exact .done _ _

theorem Local.call_inspect_malformed (ht : t.operation = .inspect)
    (h : s.store.records.get? t.key = some r) {m : Record.Malformed} (hr : r.holder = .error m) :
    s.call t = (⟨some (.observed (.malformed m.toError.message)), []⟩, s) := by
  refine call_of_some [] (by rw [ht]; nofun) h ?_ (by simp)
  simp only [Task.afterRead, ht, hr]
  exact .done _ _

end

end Mutex

end InitLock
