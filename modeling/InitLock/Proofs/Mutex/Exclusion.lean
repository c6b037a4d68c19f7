import InitLock.Proofs.Mutex.History
import InitLock.Proofs.Payload

/-!
# Mutual exclusion

A lock call that answers true had, when it last asked the store, a record that
names its machine under its key. A record stays where it is until it is removed
(`Interleaving.kept_or_removed`), so between two such moments of calls for
different machines the record was removed.
-/

namespace InitLock.Mutex

open Store (Memory)

/-- The moment `x`, number `n` of a history, is the last at which the call number `i` asks the
store. -/
structure LastAsked (h : List Moment) (i n : Nat) (x : Moment) : Prop where
  at_ : h[n]? = some x
  asks : x.Asks i true
  last {m : Nat} {y : Moment} (hm : n < m) (hy : h[m]? = some y) : ¬ y.Asks i true

/-- The call number `i` is to lock a key for a machine and has answered true. -/
def Interleaving.Won (w : Interleaving) (i : Nat) (k : Key) (machine : String) : Prop :=
  ∃ a, w.actors[i]? = some a ∧ a.task.operation = .lock machine ∧ a.task.key = k ∧
    a.outcome? = some (.answered true)

/-! ## How a lock call comes to answer true -/

namespace Task

section
variable {t : Task}

theorem answer_inj {b b' : Bool} (h : answer b = answer b') : b = b' := by
  cases h; rfl

theorem Judged.held_of_true {machine : String} {r : Record} {es : List Event}
    (h : Judged machine r es (answer true)) : r.holder = .ok machine := by
  cases h with
  | held h => exact h

/-- A lock call answers true on a record that names its machine, or on one that it created. -/
theorem Leads.true_of_lock {stage : Stage} {x : Exchange} {es : List Event}
    (h : t.Leads stage x es (answer true)) (hf : t.Fits stage)
    (ho : t.operation = .lock t.machine) :
    (∃ r, x = ⟨.read t.key, some (.ok r)⟩ ∧ r.holder = .ok t.machine) ∨
      (t.Locks ∧ x = ⟨.create t.newRecord, some (.ok ())⟩) := by
  generalize hs : answer true = stage' at h
  cases h with
  | lockRead _ hj => subst hs; exact .inl ⟨_, rfl, hj.held_of_true⟩
  | reread hj => subst hs; exact .inl ⟨_, rfl, hj.held_of_true⟩
  | created => exact .inr ⟨hf, rfl⟩
  | unlockVacant hu =>
    rw [hu] at ho
    cases ho
  | @removed _ gone =>
    cases gone with
    | none =>
      rw [show t.operation = .unlock from hf] at ho
      cases ho
    | some => cases answer_inj hs
  | lockVacant | unlockRead | observedHeld | observedMalformed | observedUnlocked | unobserved
  | outrun | gone => cases hs
  | lockUnread | unlockUnread | uncreated | winnerGone | unreread | alive | unchecked | kept =>
    cases answer_inj hs

end

end Task

theorem Meets.holder?_of_true {fate : Fate} {s s' : Local} {t : Task} {stage : Stage}
    {x : Exchange} {es : List Event} (hm : Meets fate s x s')
    (hl : t.Leads stage x es (Task.answer true)) (hf : t.Fits stage)
    (ho : t.operation = .lock t.machine) :
    x.question.isStore = true ∧ s'.store.holder? t.key = some t.machine := by
  rcases hl.true_of_lock hf ho with ⟨r, rfl, hr⟩ | ⟨ht, rfl⟩
  · refine ⟨rfl, ?_⟩
    rw [hm.read_state, Memory.holder?, hm.read_ok, Option.bind_some, hr]
    rfl
  · refine ⟨rfl, ?_⟩
    rw [hm.create_ok.2]
    show ((s.store.store t.newRecord).records.get? t.newRecord.key).bind _ = _
    rw [Memory.get?_store, if_pos rfl, Option.bind_some, Record.holder_withUid, Task.newRecord,
      Record.holder_naming ht.named]
    rfl

/-! ## The last question to the store -/

namespace LastAsked

variable {h : List Moment} {i n : Nat} {x y : Moment}

theorem concat (hx : LastAsked h i n x) (hy : ¬ y.Asks i true) : LastAsked (h ++ [y]) i n x where
  at_ := getElem?_concat_of_lt hx.at_
  asks := hx.asks
  last {m z} hm hz := by
    rcases of_getElem?_concat hz with hz | ⟨-, rfl⟩
    · exact hx.last hm hz
    · exact hy

theorem of_concat (hy : y.Asks i true) : LastAsked (h ++ [y]) i h.length y where
  at_ := List.getElem?_concat_length
  asks := hy
  last {m z} hm hz := by
    have := (List.getElem?_eq_some_iff.1 hz).1
    rw [List.length_append, List.length_singleton] at this
    omega

end LastAsked

/-- A lock call that has answered true has last asked the store when a record that names its
machine was under its key. -/
structure Upheld (h : List Moment) (i : Nat) (a : Actor) : Prop where
  fits : a.Fits
  asked {machine : String} (ho : a.task.operation = .lock machine)
    (ht : a.outcome? = some (.answered true)) :
    ∃ n x, LastAsked h i n x ∧ x.after.shared.store.holder? a.task.key = some machine

theorem Moment.Acted.upheld {h : List Moment} {x : Moment} {i : Nat} {a b : Actor}
    (hact : x.Acted i a b (x.exchanges i)) (ha : Upheld h i a) : Upheld (h ++ [x]) i b := by
  refine ⟨hact.fits ha.fits, fun {machine} ho ht => ?_⟩
  generalize hes : x.exchanges i = es at hact
  cases hact with
  | rested | fired =>
    obtain ⟨n, y, hy, hk⟩ := ha.asked ho ht
    exact ⟨n, y, hy.concat (x.not_asks_of_nil hes), hk⟩
  | @turned fate r hm hr hs =>
    have hstage : r.call.stage = Task.answer true :=
      Option.some.inj (Actor.stage_of_outcome? ht)
    cases hr with
    | begun =>
      rcases a.first_stage (s := x.before.shared) with hf | ⟨-, -, hf⟩ <;> rw [hf] at hstage
      · rcases a.task.start_eq with hstart | hstart <;> rw [hstart] at hstage
        · cases hstage
        · cases Task.answer_inj hstage
      · cases hstage
    | cancelled => cases hstage
    | @asked stage stage' e _ _ h _ hl hmeet =>
      have hstage : stage' = Task.answer true := hstage
      subst hstage
      have hmachine : a.task.machine = machine := Task.machine_of_lock ho
      obtain ⟨hstore, hk⟩ := hmeet.holder?_of_true hl (ha.fits _ h) (hmachine ▸ ho)
      have hasks : x.Asks i true := x.asks_iff hes |>.2 hstore
      refine ⟨_, x, .of_concat hasks, ?_⟩
      rw [hs, ← hmachine]
      exact hk

theorem Interleaving.upheld (tasks : List Task) (s : Local) (ms : List Move) {i : Nat} {a : Actor}
    (ha : ((ofTasks tasks s).after ms).actors[i]? = some a) :
    Upheld ((ofTasks tasks s).history ms) i a := by
  refine history_induct (P := fun h w => ∀ a, w.actors[i]? = some a → Upheld h i a) ?_ ?_ a ha
  · intro a ha
    obtain ⟨t, ht, rfl⟩ := of_getElem?_ofTasks ha
    refine ⟨fun _ hs => ?_, fun _ ht => ?_⟩
    · cases hs
    · cases ht
  · intro h x _ ih b hb
    obtain ⟨a, ha, hact⟩ := x.acted hb
    exact hact.upheld (ih a ha)

/-! ## Between two calls that answer true -/

section
variable {w : Interleaving} {ms : List Move}

theorem Interleaving.kept_or_removed (hms : ∀ r, Move.insert r ∉ ms) {k : Key} {r : Record}
    {p q : Nat} (hpq : p ≤ q) (hp : (w.after (ms.take p)).shared.store.records.get? k = some r) :
    (w.after (ms.take q)).shared.store.records.get? k = some r ∨
      ∃ n x, p ≤ n ∧ n < q ∧ (w.history ms)[n]? = some x ∧ x.effect = some (.removes k r) := by
  induction hpq with
  | refl => exact .inl hp
  | @step q hpq ih =>
    rcases ih with ih | ⟨n, x, hn, hnq, hx⟩
    · cases hx : (w.history ms)[q]? with
      | none =>
        rw [after_take_succ_of_none hx]
        exact .inl ih
      | some x =>
        obtain ⟨hmem, hbefore, hafter⟩ := of_getElem?_history hx
        rw [← hbefore] at ih
        have hins (r : Record) : x.move ≠ .insert r := fun he => hms r (he ▸ hmem)
        rcases x.kept_or_removed hins ih with h | h
        · exact .inl (hafter ▸ h)
        · exact .inr ⟨q, x, hpq, Nat.lt_succ_self q, hx, h⟩
    · exact .inr ⟨n, x, hn, Nat.lt_succ_of_lt hnq, hx⟩

/-- If the record under a key names one machine after a moment and another after a later one, a
record was removed from the key between them. -/
theorem Interleaving.removed_between (hms : ∀ r, Move.insert r ∉ ms) {k : Key}
    {m m' : String} (hne : m ≠ m') {p q : Nat} {x y : Moment} (hpq : p ≤ q)
    (hx : (w.history ms)[p]? = some x) (hy : (w.history ms)[q]? = some y)
    (hm : x.after.shared.store.holder? k = some m)
    (hm' : y.after.shared.store.holder? k = some m') :
    ∃ n z r, p < n ∧ n < q ∧ (w.history ms)[n]? = some z ∧ z.effect = some (.removes k r) := by
  obtain ⟨r, hr, hrm⟩ := Option.bind_eq_some_iff.1 hm
  obtain ⟨r', hr', hrm'⟩ := Option.bind_eq_some_iff.1 hm'
  rw [(of_getElem?_history hx).2.2] at hr
  have hya := (of_getElem?_history hy).2.2
  rcases kept_or_removed hms (Nat.succ_le_succ hpq) hr with hkept | ⟨n, z, hn, hnq, hz, hrem⟩
  · rw [← hya, hr'] at hkept
    cases hkept
    rw [hrm] at hrm'
    exact absurd (Option.some.inj hrm') hne
  · have hn' : n ≠ q := by
      rintro rfl
      rw [hy] at hz
      cases hz
      rw [(y.get?_of_removes hrem).2] at hr'
      cases hr'
    exact ⟨n, z, r, hn, by omega, hz, hrem⟩
end

namespace Interleaving

/-- Mutual exclusion, whatever the calls, the first state, the schedule and the fates of the
questions: where nothing is put into the store directly, a call that has locked a key for a machine
had a record under the key that names the machine when it last asked the store, and between the
last questions of two such calls for different machines the record was removed. -/
theorem mutual_exclusion (tasks : List Task) (s : Local) {ms : List Move}
    (hms : ∀ r, Move.insert r ∉ ms) (k : Key) :
    (∀ i m, ((ofTasks tasks s).after ms).Won i k m →
      ∃ n x, LastAsked ((ofTasks tasks s).history ms) i n x ∧
        x.after.shared.store.holder? k = some m) ∧
    ∀ i i' m m', ((ofTasks tasks s).after ms).Won i k m → ((ofTasks tasks s).after ms).Won i' k m' →
      m ≠ m' → ∃ n x n' x', LastAsked ((ofTasks tasks s).history ms) i n x ∧
        LastAsked ((ofTasks tasks s).history ms) i' n' x' ∧
        ∃ q y r, min n n' < q ∧ q < max n n' ∧ ((ofTasks tasks s).history ms)[q]? = some y ∧
          y.effect = some (.removes k r) := by
  have hwon (i : Nat) (m : String) (h : ((ofTasks tasks s).after ms).Won i k m) :
      ∃ n x, LastAsked ((ofTasks tasks s).history ms) i n x ∧
        x.after.shared.store.holder? k = some m := by
    obtain ⟨a, ha, ho, rfl, ht⟩ := h
    exact (upheld tasks s ms ha).asked ho ht
  refine ⟨hwon, fun i i' m m' h h' hne => ?_⟩
  obtain ⟨n, x, hx, hm⟩ := hwon i m h
  obtain ⟨n', x', hx', hm'⟩ := hwon i' m' h'
  refine ⟨n, x, n', x', hx, hx', ?_⟩
  rcases Nat.le_total n n' with hle | hle
  · rw [Nat.min_eq_left hle, Nat.max_eq_right hle]
    obtain ⟨q, y, r, hq⟩ := removed_between hms hne hle hx.at_ hx'.at_ hm hm'
    exact ⟨q, y, r, hq⟩
  · rw [Nat.min_eq_right hle, Nat.max_eq_left hle]
    obtain ⟨q, y, r, hq⟩ := removed_between hms hne.symm hle hx'.at_ hx.at_ hm' hm
    exact ⟨q, y, r, hq⟩

/-- A call for the machine `a` and two for `b`. -/
def rivals : Interleaving := ofTasks (["a", "b", "b"].map (.locking (.named "ns" "c" none))) .empty

/-- The call for `a` locks, the first one for `b` is told that `a` is gone, the second one locks. -/
def takeover : List Move :=
  [.turn 0, .turn 0, .turn 0, .turn 1, .turn 1, .turn 1 (.told false), .turn 1, .turn 2, .turn 2,
    .turn 2]

theorem mutual_exclusion_takeover :
    (rivals.after takeover).Won 0 ⟨"ns", "c-etcd-lock"⟩ "a" ∧
      (rivals.after takeover).Won 2 ⟨"ns", "c-etcd-lock"⟩ "b" ∧
      ∃ n x n' x', LastAsked (rivals.history takeover) 0 n x ∧
        LastAsked (rivals.history takeover) 2 n' x' ∧
        ∃ q y r, min n n' < q ∧ q < max n n' ∧ (rivals.history takeover)[q]? = some y ∧
          y.effect = some (.removes ⟨"ns", "c-etcd-lock"⟩ r) := by
  have ha : (rivals.after takeover).Won 0 ⟨"ns", "c-etcd-lock"⟩ "a" := ⟨_, rfl, rfl, rfl, rfl⟩
  have hb : (rivals.after takeover).Won 2 ⟨"ns", "c-etcd-lock"⟩ "b" := ⟨_, rfl, rfl, rfl, rfl⟩
  exact ⟨ha, hb, (mutual_exclusion _ _ (by simp [takeover]) _).2 0 2 "a" "b" ha hb (by decide)⟩

end Interleaving

end InitLock.Mutex
