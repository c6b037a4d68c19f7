import InitLock.Proofs.Mutex.Audit
import InitLock.Proofs.Mutex.Cancellation
import InitLock.Proofs.Mutex.Exclusion
import InitLock.Proofs.Mutex.Transcript

/-!
# Unlocking under contention

The exchange at which an unlock call answers tells what it answers
(`Meets.of_unlock`): true if no record is left, false if the record it read has
been replaced by one with another uid. A record that is there now and was not
before has been created in between (`Interleaving.there_or_created`), so where
there are unlock calls only, none of them answers false and the record is
removed once.
-/

namespace InitLock.Mutex

open Store (Memory)
open Store.Memory (Effect)

def Move.isTurn (i : Nat) : Move → Bool
  | .turn j _ => j == i
  | .fire _ | .kill _ _ | .revive _ _ | .insert _ => false

/-- A move keeps no answer back. -/
def Move.delivers : Move → Bool
  | .turn _ fate => fate.delivers
  | .fire _ | .kill _ _ | .revive _ _ | .insert _ => true

/-- The call number `i` answers at the moment `x`, number `n` of a history, by the exchange `e` that
it had at the stage. -/
structure AnswersAt (h : List Moment) (i : Nat) (b : Bool) (n : Nat) (x : Moment) (a : Actor)
    (stage : Stage) (e : Exchange) : Prop where
  at_ : h[n]? = some x
  before : x.before.actors[i]? = some a
  stage_eq : a.stage = some stage
  leads : ∃ es, a.task.Leads stage e es (Task.answer b)
  meets : ∃ fate, x.move = .turn i fate ∧ Meets fate x.before.shared e x.after.shared
  asked : x.exchanges i = [e]
  silent {m : Nat} {y : Moment} (hm : n < m) (hy : h[m]? = some y) : y.exchanges i = []

/-- Between the moments number `p` and `n` a call other than the one number `i` removed the record
from its key, and a record with another uid was created there. -/
def Replaced (h : List Moment) (i p n : Nat) (k : Key) (r : Record) : Prop :=
  ∃ q y j fate q' z r', p < q ∧ q < q' ∧ q' < n ∧
    h[q]? = some y ∧ y.move = .turn j fate ∧ j ≠ i ∧ y.effect = some (.removes k r) ∧
    h[q']? = some z ∧ z.effect = some (.creates r') ∧ r'.key = k ∧ r'.uid ≠ r.uid

/-! ## The last exchange of an unlock call -/

section
variable {fate : Fate} {s s' : Local} {e : Exchange} {t : Task} {stage stage' : Stage}
  {es : List Event} {b : Bool}

/-- An exchange with the store whose answer arrives is one with the store itself. -/
theorem Meets.arrives (h : Meets fate s e s') (hd : fate.delivers = true)
    (hq : e.question.isStore = true) : Meets .arrives s e s' := by
  have hmeet := (s.meet_of_delivers hd hq).1
  exact ⟨by rw [h.answer, hmeet]; rfl, by rw [h.state, hmeet]; rfl⟩

theorem Task.Fits.of_unlock (hf : t.Fits stage) (ho : t.operation = .unlock) :
    stage = .reading ∨ (∃ r, stage = .deleting r none) ∨ ∃ o, stage = .ended o := by
  have hlocks : ¬ t.Locks := fun h => by
    rw [h.operation] at ho
    cases ho
  cases stage with
  | reading => exact .inl rfl
  | creating | rereading => exact absurd hf hlocks
  | checking => exact absurd hf.1 hlocks
  | deleting r gone =>
    cases gone with
    | none => exact .inr (.inl ⟨r, rfl⟩)
    | some => exact absurd hf.1 hlocks
  | stalled => exact absurd hf id
  | ended o => exact .inr (.inr ⟨o, rfl⟩)

/-- An unlock call answers true when no record is left. It answers false when it wanted to delete
the record it has read, but finds one with another uid. -/
theorem Meets.of_unlock (hm : Meets .arrives s e s') (hl : t.Leads stage e es (Task.answer b))
    (hf : t.Fits stage) (ho : t.operation = .unlock)
    (hkey : ∀ r gone, stage = .deleting r gone → r.key = t.key) :
    (b = true ∧ s'.store.records.get? t.key = none) ∨
      ∃ r r', b = false ∧ stage = .deleting r none ∧
        e = ⟨.delete t.key r.uid, some (.error (.conflict t.key))⟩ ∧
        s.store.records.get? t.key = some r' ∧ r'.uid ≠ r.uid := by
  generalize hstage : Task.answer b = stage' at hl
  rcases hf.of_unlock ho with rfl | ⟨r, rfl⟩ | ⟨o, rfl⟩
  · cases hl with
    | unlockVacant =>
      rw [hm.read_state]
      exact .inl ⟨Task.answer_inj hstage, hm.read_notFound⟩
    | unlockUnread _ he => exact absurd hm.read_error (he _)
    | lockRead ho' | lockUnread ho' =>
      rw [ho] at ho'
      cases ho'
    | lockVacant | unlockRead | observedHeld | observedMalformed | observedUnlocked
    | unobserved => cases hstage
  · have hr := hkey r none rfl
    obtain ⟨a, rfl, hb⟩ : ∃ a, e = ⟨.delete r.key r.uid, some a⟩ ∧ b = (Task.deleted a).2 := by
      cases hl with
      | removed h => exact ⟨_, rfl, h ▸ Task.answer_inj hstage⟩
      | kept h => exact ⟨_, rfl, h ▸ Task.answer_inj hstage⟩
    rw [hr] at hm ⊢
    have hdel := s.store.deleted t.key r.uid
    rw [hm.deleted] at hdel
    generalize s'.store = store at hdel ⊢
    cases hdel with
    | notFound hnone => exact .inl ⟨hb, hnone⟩
    | conflict r' hr' _ hne => exact .inr ⟨r, r', hb, rfl, rfl, hr', hne⟩
    | ok => exact .inl ⟨hb, by simp only [Table.get?_erase, ↓reduceIte]⟩
  · cases hl

end

/-- A delete that is refused does nothing to the store. -/
theorem Moment.effect_of_refused (x : Moment) (hd : x.Delivered) {i : Nat} {fate : Fate} {k : Key}
    {u : Option String} {err : StoreError} (hm : x.move = .turn i fate)
    (he : x.exchanges i = [⟨.delete k u, some (.error err)⟩]) : x.effect = none := by
  have hmem : (⟨.delete k u, some (.error err)⟩ : Exchange) ∈ x.exchanges i := by
    rw [he]
    exact List.mem_singleton_self _
  obtain ⟨fate', _, _, _, _, hm', -, -, -, hmeet, -⟩ := x.asked hmem
  rw [hm] at hm'
  cases hm'
  have hmark := hmeet.mark? fun _ => hd i fate _ hm hmem rfl
  simp only [effect, hm, he, List.head?_cons, Option.bind_some]
  exact Option.map_eq_none_iff.1 hmark.symm

/-! ## Where a call answers -/

namespace AnswersAt

variable {h : List Moment} {x y : Moment} {i n : Nat} {b : Bool} {a : Actor} {stage : Stage}
  {e : Exchange}

theorem concat (ha : AnswersAt h i b n x a stage e) (hy : y.exchanges i = []) :
    AnswersAt (h ++ [y]) i b n x a stage e where
  at_ := getElem?_concat_of_lt ha.at_
  before := ha.before
  stage_eq := ha.stage_eq
  leads := ha.leads
  meets := ha.meets
  asked := ha.asked
  silent {m z} hm hz := by
    rcases of_getElem?_concat hz with hz | ⟨-, rfl⟩
    · exact ha.silent hm hz
    · exact hy

theorem lastAsked (ha : AnswersAt h i b n x a stage e) (he : e.question.isStore = true) :
    LastAsked h i n x where
  at_ := ha.at_
  asks := (x.asks_iff ha.asked).2 he
  last hm hy := Moment.not_asks_of_nil _ (ha.silent hm hy)

theorem not_ended (ha : AnswersAt h i b n x a stage e) (o : Outcome) : ¬ x.before.Ended i o := by
  intro hended
  have hnil := (x.stays_ended hended).2
  rw [ha.asked] at hnil
  cases hnil

end AnswersAt

namespace Interleaving

section
variable {tasks : List Task} {s : Local} {ms : List Move} {i : Nat} {b : Bool} {t : Task}

/-- A call that has asked anything and answered has answered at one of its exchanges. -/
theorem Ended.answersAt (ht : tasks[i]? = some t) (ho : t.operation ≠ .lock "")
    (h : ((ofTasks tasks s).after ms).Ended i (.answered b)) :
    ∃ n x a stage e, AnswersAt ((ofTasks tasks s).history ms) i b n x a stage e := by
  obtain ⟨a, ha, hs⟩ := h
  refine history_induct (P := fun h w => ∀ a, w.actors[i]? = some a → a.task.operation ≠ .lock "" →
    a.stage = some (Task.answer b) → ∃ n x a stage e, AnswersAt h i b n x a stage e) ?_ ?_ a ha
    (task_after ht ha ▸ ho) hs
  · intro a ha _ hs
    obtain ⟨_, -, rfl⟩ := of_getElem?_ofTasks ha
    cases hs
  · intro h x _ ih c hc hop hs
    obtain ⟨a, ha, hact⟩ := x.acted hc
    generalize hes : x.exchanges i = es at hact
    cases hact with
    | rested | fired =>
      obtain ⟨n, y, d, stage, e, hy⟩ := ih _ ha hop hs
      exact ⟨n, y, d, stage, e, hy.concat hes⟩
    | @turned fate r hm hr hshared =>
      have hstage : r.call.stage = Task.answer b := Option.some.inj hs
      cases hr with
      | begun =>
        rcases a.first_stage (s := x.before.shared) with hf | ⟨-, -, hf⟩ <;> rw [hf] at hstage
        · have hreading : a.task.start.2 = .reading := Task.start_eq_reading hop
          rw [hreading] at hstage
          cases hstage
        · cases hstage
      | cancelled => cases hstage
      | @asked stage stage' e _ _ hs' _ hl hmeet =>
        obtain rfl : stage' = Task.answer b := hstage
        refine ⟨h.length, x, a, stage, e, List.getElem?_concat_length, ha, hs', ⟨_, hl⟩,
          ⟨fate, hm, ?_⟩, hes, fun hlt hy => ?_⟩
        · rw [hshared]
          exact hmeet
        · have := (List.getElem?_eq_some_iff.1 hy).1
          rw [List.length_append, List.length_singleton] at this
          omega

end

end Interleaving

/-! ## Records that come and go -/

theorem Moment.there_or_created (x : Moment) (hm : ∀ r, x.move ≠ .insert r) {k : Key} {r : Record}
    (h : x.after.shared.store.records.get? k = some r) :
    x.before.shared.store.records.get? k = some r ∨
      x.effect = some (.creates r) ∧ r.key = k := by
  have hx := x.stored
  generalize x.effect = e, x.after.shared.store = t at hx h ⊢
  cases hx with
  | kept => exact .inl h
  | inserted r' hins => exact absurd hins (hm r')
  | created r' =>
    have h : (x.before.shared.store.store r').records.get? k = some r := h
    rw [Memory.get?_store] at h
    split at h
    · next hk =>
      cases h
      exact .inr ⟨rfl, hk.symm⟩
    · exact .inl h
  | removed => exact .inl (Memory.get?_erase_some h)

namespace Interleaving

section
variable {w : Interleaving} {ms : List Move} {k : Key} {r r' : Record} {p q : Nat}

/-- A record that is under a key was there before, or it has been created since. -/
theorem there_or_created (hms : ∀ r, Move.insert r ∉ ms) (hpq : p ≤ q)
    (hq : (w.after (ms.take q)).shared.store.records.get? k = some r) :
    (w.after (ms.take p)).shared.store.records.get? k = some r ∨
      ∃ n x, p ≤ n ∧ n < q ∧ (w.history ms)[n]? = some x ∧ x.effect = some (.creates r) ∧
        r.key = k := by
  induction hpq with
  | refl => exact .inl hq
  | @step q hpq ih =>
    have hlast : (w.after (ms.take q)).shared.store.records.get? k = some r ∨
        ∃ x, (w.history ms)[q]? = some x ∧ x.effect = some (.creates r) ∧ r.key = k := by
      cases hx : (w.history ms)[q]? with
      | none =>
        rw [after_take_succ_of_none hx] at hq
        exact .inl hq
      | some x =>
        obtain ⟨hmem, hbefore, hafter⟩ := of_getElem?_history hx
        rw [← hafter] at hq
        rw [← hbefore]
        exact (x.there_or_created (fun r he => hms r (he ▸ hmem)) hq).imp_right
          fun h => ⟨x, rfl, h⟩
    rcases hlast with hlast | ⟨x, hx, hcreate⟩
    · exact (ih hlast).imp_right fun ⟨n, x, hn, hnq, hx⟩ => ⟨n, x, hn, Nat.lt_succ_of_lt hnq, hx⟩
    · exact .inr ⟨q, x, hpq, Nat.lt_succ_self q, hx, hcreate⟩

/-- Where nothing is created, a key that is vacant at one moment is so at the end. -/
theorem vacant_stays (hms : ∀ r, Move.insert r ∉ ms)
    (hcreates : ∀ x ∈ w.history ms, ∀ r, x.effect ≠ some (.creates r)) {n : Nat} {x : Moment}
    (hx : (w.history ms)[n]? = some x) (hnone : x.after.shared.store.records.get? k = none) :
    (w.after ms).shared.store.records.get? k = none := by
  obtain ⟨-, -, hafter⟩ := of_getElem?_history hx
  have hlt := (List.getElem?_eq_some_iff.1 hx).1
  rw [length_history] at hlt
  rw [hafter] at hnone
  cases hget : (w.after ms).shared.store.records.get? k with
  | none => rfl
  | some r =>
    rw [← List.take_length (l := ms)] at hget
    rcases there_or_created hms hlt hget with hthere | ⟨_, z, -, -, hz, hcreate, -⟩
    · rw [hnone] at hthere
      cases hthere
    · exact absurd hcreate (hcreates z (List.mem_of_getElem? hz) r)

/-- If another record is under the key than the one the call read, and the call has not ended, then
another call removed the one and the other was created since. -/
theorem replaced (hms : ∀ r, Move.insert r ∉ ms) {i n : Nat} (hpn : p < n)
    (hread : ReadAt (w.history ms) i p k r)
    (hn : (w.after (ms.take n)).shared.store.records.get? k = some r') (hne : r'.uid ≠ r.uid)
    (hopen : ∀ o, ¬ (w.after (ms.take n)).Ended i o) :
    Replaced (w.history ms) i p n k r := by
  obtain ⟨x, hx, he⟩ := hread
  obtain ⟨-, -, hafter⟩ := of_getElem?_history hx
  obtain ⟨_, _, _, _, _, -, -, -, -, hmeet, -⟩ := x.asked (he ▸ List.mem_singleton_self _)
  have hthere : (w.after (ms.take (p + 1))).shared.store.records.get? k = some r := by
    rw [← hafter, hmeet.read_state]
    exact hmeet.read_ok
  rcases kept_or_removed hms hpn hthere with hkept | ⟨q, y, hpq, hqn, hy, hremoves⟩
  · rw [hn] at hkept
    cases hkept
    exact absurd rfl hne
  · obtain ⟨-, -, hafter⟩ := of_getElem?_history hy
    obtain ⟨j, fate, _, hm, -⟩ := y.asked_of_effect hremoves
    have hvacant := (y.get?_of_removes hremoves).2
    rw [hafter] at hvacant
    rcases there_or_created hms hqn hn with hthere | ⟨q', z, hqq', hqn', hz, hcreates, hkey⟩
    · rw [hvacant] at hthere
      cases hthere
    · refine ⟨q, y, j, fate, q', z, r', hpq, hqq', hqn', hy, hm, ?_, hremoves, hz, hcreates, hkey,
        hne⟩
      rintro rfl
      obtain ⟨b, hended⟩ := y.ended_of_effect hremoves hm
      rw [hafter] at hended
      exact hopen _ (ended_from hended hqn)

end

end Interleaving

/-! ## Turns of an unlock call -/

/-- How many turns of an unlock call are left at most. -/
def Actor.turnsLeft (a : Actor) : Nat :=
  match a.stage with
  | none => 3
  | some stage => min stage.remaining 2

section
variable {a : Actor} {fate : Fate} {s : Local} {r : Run Local} {q : Question}

/-- A turn of an unlock call that has a question and does not notice its token takes it further. -/
theorem Advances.turnsLeft_lt (h : Advances fate a s r) (hn : a.noticed = false) (hf : a.Fits)
    (ho : a.task.operation = .unlock) : (a.goTo r.call.stage).turnsLeft < a.turnsLeft := by
  have hne : a.task.operation ≠ .lock "" := by
    rw [ho]
    nofun
  cases h with
  | begun hnone =>
    rcases a.first_stage (s := s) with hfirst | ⟨hn', -⟩
    · simp only [Actor.turnsLeft, Actor.goTo, hfirst, hnone, Task.start_eq_reading hne]
      decide
    · rw [hn] at hn'
      cases hn'
  | cancelled _ _ hn' =>
    rw [hn] at hn'
    cases hn'
  | @asked stage stage' _ _ _ hs _ hl =>
    have hlt := hl.remaining_lt
    have hfit := hf stage hs
    simp only [Actor.turnsLeft, Actor.goTo, hs]
    rcases hfit.of_unlock ho with rfl | ⟨_, rfl⟩ | ⟨_, rfl⟩ <;>
      rcases (hl.fits hfit).of_unlock ho with rfl | ⟨_, rfl⟩ | ⟨_, rfl⟩ <;>
        simp [Stage.remaining] at hlt ⊢

theorem Actor.ended_of_turnsLeft (hf : a.Fits) (ho : a.task.operation = .unlock)
    (h : a.turnsLeft = 0) : ∃ o, a.stage = some (.ended o) := by
  unfold turnsLeft at h
  split at h
  · cases h
  · next stage hs =>
    rcases (hf stage hs).of_unlock ho with rfl | ⟨_, rfl⟩ | ⟨o, rfl⟩
    · cases h
    · cases h
    · exact ⟨o, hs⟩

theorem Actor.pending?_of_turnsLeft (hf : a.Fits) (ho : a.task.operation = .unlock)
    (h : 0 < a.turnsLeft) : ∃ q, a.pending? = some q := by
  rw [Actor.pending?_iff]
  unfold turnsLeft at h
  split at h
  · next hs =>
    rw [hs, Option.getD_none, Task.start_eq_reading (by simp [ho])]
    rfl
  · next stage hs =>
    rw [hs, Option.getD_some]
    rcases (hf stage hs).of_unlock ho with rfl | ⟨_, rfl⟩ | ⟨o, rfl⟩
    · rfl
    · rfl
    · cases h

end

/-- A turn of its own takes an unlock call that is not cancelled nearer to its end, and no other
move takes it back. -/
theorem Moment.unlock_turn {x : Moment} {i : Nat} {a b : Actor}
    (ha : x.before.actors[i]? = some a) (hb : x.after.actors[i]? = some b) (hf : a.Fits)
    (ho : a.task.operation = .unlock) (hn : a.noticed = false)
    (hlive : a.stage ≠ some (.ended .cancelled)) :
    b.turnsLeft ≤ a.turnsLeft - (if x.move.isTurn i then 1 else 0) ∧
      b.stage ≠ some (.ended .cancelled) := by
  obtain ⟨b', hb', hact⟩ := x.acted_before ha
  obtain rfl : b' = b := Option.some.inj (hb'.symm.trans hb)
  rcases Nat.eq_zero_or_pos a.turnsLeft with hzero | hpos
  · obtain ⟨o, hs⟩ := Actor.ended_of_turnsLeft hf ho hzero
    rw [hs] at hlive
    rw [(hact.ended hs).1]
    exact ⟨by simp [Actor.turnsLeft, (hact.ended hs).1, Stage.remaining], hlive⟩
  · cases hm : x.move.isTurn i with
    | true =>
      obtain ⟨fate, hmove⟩ : ∃ fate, x.move = .turn i fate := by
        cases hmove : x.move with
        | turn j fate =>
          rw [hmove] at hm
          exact ⟨fate, congrArg (Move.turn · fate) (beq_iff_eq.1 hm)⟩
        | fire | kill | revive | insert =>
          rw [hmove] at hm
          cases hm
      obtain ⟨q, hq⟩ := Actor.pending?_of_turnsLeft hf ho hpos
      obtain ⟨r, hr, hafter⟩ := Moment.turned hmove ha hq
      cases hb.symm.trans hafter
      have hlt := hr.turnsLeft_lt hn hf ho
      refine ⟨by simp only [↓reduceIte]; omega, fun hs => ?_⟩
      obtain ⟨hn', -⟩ := hr.of_cancelled (Option.some.inj hs)
      rw [hn] at hn'
      cases hn'
    | false =>
      generalize x.exchanges i = es at hact
      cases hact with
      | rested | fired => exact ⟨Nat.le_refl _, hlive⟩
      | turned hmove =>
        rw [hmove] at hm
        simp [Move.isTurn] at hm

namespace Interleaving

section
variable {tasks : List Task} {s : Local} {i : Nat} {t : Task}

theorem unlock_turns (ht : tasks[i]? = some t) (ho : t.operation = .unlock) {ms : List Move}
    (hc : t.cancellable = true → .fire i ∉ ms) {a : Actor}
    (ha : ((ofTasks tasks s).after ms).actors[i]? = some a) :
    a.turnsLeft ≤ 3 - ms.countP (Move.isTurn i) ∧ a.stage ≠ some (.ended .cancelled) := by
  induction ms using List.reverseRecOn generalizing a with
  | nil =>
    obtain ⟨_, -, rfl⟩ := of_getElem?_ofTasks ha
    exact ⟨Nat.le_refl _, nofun⟩
  | append_singleton ms m ih =>
    have hc' (h : t.cancellable = true) : .fire i ∉ ms := fun hfire =>
      hc h (List.mem_append_left _ hfire)
    rw [after_concat] at ha
    obtain ⟨b, hb, -⟩ := Moment.acted _ ha
    obtain ⟨hle, hlive⟩ := ih hc' hb
    obtain ⟨htask, hfits⟩ := fits_after tasks s ms hb
    obtain rfl : t = b.task := Option.some.inj (ht.symm.trans htask)
    have hn : b.noticed = false := by
      rw [Actor.noticed, Bool.and_eq_false_imp, fired_after tasks s ms hb]
      intro hfire
      by_contra hcan
      exact hc' (Bool.not_eq_false _ ▸ hcan) hfire
    obtain ⟨hlt, hlive'⟩ := Moment.unlock_turn hb ha hfits ho hn hlive
    dsimp only at hlt
    rw [List.countP_append, List.countP_singleton]
    exact ⟨by omega, hlive'⟩

/-- An unlock call that is not cancelled and has had three turns has answered. -/
theorem unlock_answers (ht : tasks[i]? = some t) (ho : t.operation = .unlock) {ms : List Move}
    (hc : t.cancellable = true → .fire i ∉ ms) (hturns : 3 ≤ ms.countP (Move.isTurn i)) :
    ∃ b, ((ofTasks tasks s).after ms).Ended i (.answered b) := by
  have hlen : i < ((ofTasks tasks s).after ms).actors.length := by
    rw [length_actors_after, ofTasks, List.length_map]
    exact (List.getElem?_eq_some_iff.1 ht).1
  have ha := List.getElem?_eq_getElem hlen
  generalize ((ofTasks tasks s).after ms).actors[i] = a at ha
  obtain ⟨htask, hfits⟩ := fits_after tasks s ms ha
  obtain rfl : t = a.task := Option.some.inj (ht.symm.trans htask)
  obtain ⟨hle, hlive⟩ := unlock_turns ht ho hc ha
  obtain ⟨o, hs⟩ := Actor.ended_of_turnsLeft hfits ho (by omega)
  obtain ⟨res, hres⟩ := Ended.returned ⟨a, ha, hs⟩ ht (by simp [ho])
  rw [result?, ha, Option.bind_some, Actor.result?, hs, Option.bind_some] at hres
  cases o with
  | answered b => exact ⟨b, a, ha, hs⟩
  | cancelled => exact absurd hs hlive
  | observed | failed => cases hres

/-! ## What an unlock call has seen -/

variable {ms : List Move} {b : Bool}

/-- The last question of an unlock call that has answered, and what became of the record. -/
theorem Ended.of_unlock (hs : s.store.WellFormed) (hms : ∀ r, Move.insert r ∉ ms)
    (hd : ∀ x ∈ (ofTasks tasks s).history ms, x.Delivered) (ht : tasks[i]? = some t)
    (ho : t.operation = .unlock) (h : ((ofTasks tasks s).after ms).Ended i (.answered b)) :
    ∃ n x, LastAsked ((ofTasks tasks s).history ms) i n x ∧ (∀ o, ¬ x.before.Ended i o) ∧
      (b = true ∧ x.after.shared.store.records.get? t.key = none ∨
        b = false ∧ ∃ p r, p < n ∧ ReadAt ((ofTasks tasks s).history ms) i p t.key r ∧
          x.exchanges i = [⟨.delete t.key r.uid, some (.error (.conflict t.key))⟩] ∧
          Replaced ((ofTasks tasks s).history ms) i p n t.key r) := by
  obtain ⟨n, x, a, stage, e, hx⟩ := h.answersAt ht (by simp [ho])
  obtain ⟨-, hbefore, -⟩ := of_getElem?_history hx.at_
  have ha : ((ofTasks tasks s).after (ms.take n)).actors[i]? = some a := hbefore ▸ hx.before
  obtain ⟨htask, hfits⟩ := fits_after tasks s (ms.take n) ha
  obtain rfl : t = a.task := Option.some.inj (ht.symm.trans htask)
  have hfit := hfits stage hx.stage_eq
  have hbacked := (backed tasks hs (ms.take n)).2 i a ha
  rw [hx.stage_eq] at hbacked
  have hkey : ∀ r gone, stage = .deleting r gone → r.key = a.task.key := by
    rintro r gone rfl
    cases gone with
    | none => exact hbacked.2.choose_spec.keyed
    | some => exact absurd (hfit.1.operation.symm.trans ho) (by simp)
  have hstore : e.question.isStore = true := by
    obtain ⟨_, hl⟩ := hx.leads
    rcases hfit.of_unlock ho with rfl | ⟨r, rfl⟩ | ⟨o, rfl⟩ <;> cases hl <;> rfl
  obtain ⟨fate, hm, hmeet⟩ := hx.meets
  have hmeet : Meets .arrives x.before.shared e x.after.shared :=
    hmeet.arrives (hd x (List.mem_of_getElem? hx.at_) i fate e hm (by rw [hx.asked]; simp) hstore)
      hstore
  refine ⟨n, x, hx.lastAsked hstore, hx.not_ended, ?_⟩
  rcases hmeet.of_unlock hx.leads.choose_spec hfit ho hkey with
    htrue | ⟨r, r', rfl, rfl, rfl, hr', hne⟩
  · exact .inl htrue
  · obtain ⟨-, p, hp⟩ := hbacked
    rw [← history_take] at hp
    obtain ⟨hpn, hread⟩ := hp.read.of_take
    refine .inr ⟨rfl, p, r, hpn, hread, hx.asked, ?_⟩
    refine replaced hms hpn hread (hbefore ▸ hr') hne fun o => ?_
    rw [← hbefore]
    exact hx.not_ended o

end

/-! ## Unlock calls only -/

section
variable {tasks : List Task} {s : Local} {ms : List Move} {k : Key} {x : Moment}

theorem creates_nothing (hops : ∀ t ∈ tasks, t.operation = .unlock)
    (hx : x ∈ (ofTasks tasks s).history ms) (r : Record) : x.effect ≠ some (.creates r) := by
  intro heff
  obtain ⟨i, fate, ⟨q, o⟩, -, he, hq⟩ := x.asked_of_effect heff
  obtain ⟨r', rfl, -⟩ := Memory.create_of_effect hq
  obtain ⟨_, a, stage, es, stage', -, ha, hstage, hl, -⟩ := x.asked he
  obtain ⟨n, -, hbefore, -⟩ := of_mem_history hx
  obtain ⟨ht, hfits⟩ := fits_after tasks s (ms.take n) (hbefore ▸ ha)
  rcases (hfits stage hstage).of_unlock (hops _ (List.mem_of_getElem? ht)) with
    rfl | ⟨_, rfl⟩ | ⟨_, rfl⟩ <;> cases hl

/-- As long as there are unlock calls only, the record under their key is there and nothing has
happened, or it was removed and nothing else has happened. -/
theorem removed_once (hs : s.store.WellFormed) (hms : ∀ r, Move.insert r ∉ ms)
    (hops : ∀ t ∈ tasks, t.operation = .unlock ∧ t.key = k) :
    (((ofTasks tasks s).after ms).shared.store.records.get? k = s.store.records.get? k ∧
        effects ((ofTasks tasks s).history ms) = []) ∨
      ∃ r, s.store.records.get? k = some r ∧
        ((ofTasks tasks s).after ms).shared.store.records.get? k = none ∧
        effects ((ofTasks tasks s).history ms) = [.removes k r] := by
  refine history_induct (P := fun h w =>
    (w.shared.store.records.get? k = s.store.records.get? k ∧ effects h = []) ∨
      ∃ r, s.store.records.get? k = some r ∧ w.shared.store.records.get? k = none ∧
        effects h = [.removes k r]) (.inl ⟨rfl, rfl⟩) ?_
  intro h x hx ih
  have hcreates := creates_nothing (fun t ht => (hops t ht).1) hx
  have hkey (e : Effect) (he : x.effect = some e) : e.key = k := by
    obtain ⟨i, fate, _, hm, -⟩ := x.asked_of_effect he
    obtain ⟨t, ht, hte⟩ := Option.map_eq_some_iff.1 (key_of_effect tasks hs hx hm he)
    rw [← hte]
    exact (hops t (List.mem_of_getElem? ht)).2
  rw [effects_concat]
  have hstored := x.stored
  generalize x.effect = e, x.after.shared.store = store at hstored hcreates hkey ⊢
  cases hstored with
  | kept => simpa using ih
  | inserted r hm => exact absurd (hm ▸ move_mem_of_mem_history hx) (hms r)
  | created r => exact absurd rfl (hcreates _)
  | removed k' r hr =>
    obtain rfl : k' = k := hkey _ rfl
    rcases ih with ⟨hget, hnil⟩ | ⟨_, -, hnone, -⟩
    · refine .inr ⟨r, hget ▸ hr, ?_, by rw [hnil]; rfl⟩
      simp only [Table.get?_erase, ↓reduceIte]
    · rw [hr] at hnone
      cases hnone

end

/-- Every answer arrives under a schedule of which no move keeps one back. -/
theorem delivered {w : Interleaving} {ms : List Move} (h : ∀ m ∈ ms, m.delivers = true) :
    ∀ x ∈ w.history ms, x.Delivered := by
  intro x hx i fate _ hm _ _
  have hmove := h _ (move_mem_of_mem_history hx)
  rwa [hm] at hmove

/-! ## Contention -/

/-- What the answer of the unlock call number `i` tells of the store. -/
structure UnlockTells (tasks : List Task) (s : Local) (ms : List Move) (i : Nat) (t : Task) :
    Prop where
  /-- If it is true, no record was left when the call had asked the store for the last time. -/
  vacated (h : ((ofTasks tasks s).after ms).Ended i (.answered true)) :
    ∃ n x, LastAsked ((ofTasks tasks s).history ms) i n x ∧
      x.after.shared.store.records.get? t.key = none
  /-- If it is false, the call has neither created nor deleted anything. -/
  unwritten (h : ((ofTasks tasks s).after ms).Ended i (.answered false)) {x : Moment}
    (hx : x ∈ (ofTasks tasks s).history ms) {fate : Fate} (hm : x.move = .turn i fate) :
    x.effect = none
  /-- If it is false, the record that the call had read was replaced before its delete, which was
  its last question and was refused for that. -/
  outrun (h : ((ofTasks tasks s).after ms).Ended i (.answered false)) :
    ∃ p n x r, p < n ∧ ReadAt ((ofTasks tasks s).history ms) i p t.key r ∧
      LastAsked ((ofTasks tasks s).history ms) i n x ∧
      x.exchanges i = [⟨.delete t.key r.uid, some (.error (.conflict t.key))⟩] ∧
      Replaced ((ofTasks tasks s).history ms) i p n t.key r
  answered (hc : t.cancellable = true → .fire i ∉ ms) (hturns : 3 ≤ ms.countP (Move.isTurn i)) :
    ∃ b, ((ofTasks tasks s).after ms).Ended i (.answered b)

/-- Every unlock call has answered true, and the record under their key was removed once. -/
structure UnlockedOnce (tasks : List Task) (s : Local) (ms : List Move) (k : Key) : Prop where
  answered {i : Nat} (hi : i < tasks.length) :
    ((ofTasks tasks s).after ms).Ended i (.answered true)
  vacant : ((ofTasks tasks s).after ms).shared.store.records.get? k = none
  effects_eq : effects ((ofTasks tasks s).history ms) =
    (s.store.records.get? k).toList.map (.removes k ·)
  deletes_eq : ((ofTasks tasks s).after ms).shared.store.deletes =
    s.store.deletes + (s.store.records.get? k).toList.length

section
variable {tasks : List Task} {s : Local} {ms : List Move} {i : Nat} {t : Task}

/-- A call that writes to the store asks it for the last time. -/
theorem written_last {w : Interleaving} {n m : Nat} {x y : Moment} {fate : Fate} {effect : Effect}
    (hx : LastAsked (w.history ms) i n x) (hopen : ∀ o, ¬ x.before.Ended i o)
    (hy : (w.history ms)[m]? = some y) (hm : y.move = .turn i fate)
    (heff : y.effect = some effect) : m = n := by
  obtain ⟨j, _, e, hmove, he, hq⟩ := y.asked_of_effect heff
  rw [hm] at hmove
  cases hmove
  have hask : y.Asks i true := by
    refine ⟨e, he, ?_⟩
    obtain ⟨q, o⟩ := e
    cases q with
    | read | create | delete => rfl
    | alive => cases hq
  obtain ⟨b, hended⟩ := y.ended_of_effect heff hm
  rw [(of_getElem?_history hy).2.2] at hended
  rcases Nat.lt_trichotomy m n with hlt | rfl | hgt
  · refine absurd (ended_from hended hlt) ?_
    rw [← (of_getElem?_history hx.at_).2.1]
    exact hopen _
  · rfl
  · exact absurd hask (hx.last hgt hy)

theorem unlock_tells (hs : s.store.WellFormed) (hms : ∀ r, Move.insert r ∉ ms)
    (hd : ∀ x ∈ (ofTasks tasks s).history ms, x.Delivered) (ht : tasks[i]? = some t)
    (ho : t.operation = .unlock) : UnlockTells tasks s ms i t where
  vacated h := by
    obtain ⟨n, x, hx, -, ⟨-, hnone⟩ | ⟨hb, -⟩⟩ := h.of_unlock hs hms hd ht ho
    · exact ⟨n, x, hx, hnone⟩
    · cases hb
  unwritten h y hy fate hm := by
    cases heff : y.effect with
    | none => rfl
    | some effect =>
      obtain ⟨n, x, hx, hopen, ⟨hb, -⟩ | ⟨-, p, r, -, -, hasked, -⟩⟩ := h.of_unlock hs hms hd ht ho
      · cases hb
      obtain ⟨m, hy'⟩ := List.mem_iff_getElem?.1 hy
      obtain rfl := written_last hx hopen hy' hm heff
      cases hx.at_.symm.trans hy'
      exact heff.symm.trans (y.effect_of_refused (hd y hy) hm hasked)
  outrun h := by
    obtain ⟨n, x, hx, -, ⟨hb, -⟩ | ⟨-, p, r, hpn, hread, hasked, hrep⟩⟩ :=
      h.of_unlock hs hms hd ht ho
    · cases hb
    · exact ⟨p, n, x, r, hpn, hread, hx, hasked, hrep⟩
  answered hc hturns := unlock_answers ht ho hc hturns

theorem unlocked_once {k : Key} (hs : s.store.WellFormed) (hms : ∀ r, Move.insert r ∉ ms)
    (hd : ∀ x ∈ (ofTasks tasks s).history ms, x.Delivered) (hne : tasks ≠ [])
    (hops : ∀ t ∈ tasks, t.operation = .unlock ∧ t.key = k)
    (hrun : ∀ i t, tasks[i]? = some t →
      3 ≤ ms.countP (Move.isTurn i) ∧ (t.cancellable = true → .fire i ∉ ms)) :
    UnlockedOnce tasks s ms k := by
  have hcreates (x : Moment) (hx : x ∈ (ofTasks tasks s).history ms) (r : Record) :
      x.effect ≠ some (.creates r) := creates_nothing (fun t ht => (hops t ht).1) hx r
  have hanswered {i : Nat} (hi : i < tasks.length) :
      ((ofTasks tasks s).after ms).Ended i (.answered true) := by
    have ht := List.getElem?_eq_getElem hi
    obtain ⟨hop, -⟩ := hops _ (List.getElem_mem hi)
    have htells := unlock_tells hs hms hd ht hop
    obtain ⟨b, hb⟩ := htells.answered (hrun i _ ht).2 (hrun i _ ht).1
    cases b with
    | true => exact hb
    | false =>
      obtain ⟨_, _, _, _, -, -, -, -, hrep⟩ := htells.outrun hb
      obtain ⟨_, _, _, _, _, z, r', -, -, -, -, -, -, -, hz, hcreate, -⟩ := hrep
      exact absurd hcreate (hcreates z (List.mem_of_getElem? hz) r')
  have hvacant : ((ofTasks tasks s).after ms).shared.store.records.get? k = none := by
    have hi := List.length_pos_iff.2 hne
    obtain ⟨hop, hkey⟩ := hops _ (List.getElem_mem hi)
    obtain ⟨n, x, hx, hnone⟩ :=
      (unlock_tells hs hms hd (List.getElem?_eq_getElem hi) hop).vacated (hanswered hi)
    rw [hkey] at hnone
    exact vacant_stays hms hcreates hx.at_ hnone
  have heffects : effects ((ofTasks tasks s).history ms) =
      (s.store.records.get? k).toList.map (.removes k ·) := by
    rcases removed_once hs hms hops with ⟨hget, hnil⟩ | ⟨r, hr, -, hremoved⟩
    · rw [← hget, hvacant, hnil]
      rfl
    · rw [hr, hremoved]
      rfl
  refine ⟨hanswered, hvacant, heffects, ?_⟩
  rw [(counts _ ms).2, heffects]
  cases s.store.records.get? k <;> rfl

/-- Unlocking under contention, whatever other lock, unlock and inspect calls there are and whatever
is answered about machines: where nothing is put into the store directly and every answer of the
store arrives, an unlock call answers true when it leaves no record behind, and false when it has
done nothing because another call removed the record that it had read and a new one was created. So
any number of unlock calls on one key, and no others, all answer true and empty the key, with one
delete that succeeds if there was a record and none otherwise. -/
theorem unlock_contended (tasks : List Task) {s : Local} (hs : s.store.Reachable) {ms : List Move}
    (hms : ∀ r, Move.insert r ∉ ms) (hd : ∀ x ∈ (ofTasks tasks s).history ms, x.Delivered) :
    (∀ i t, tasks[i]? = some t → t.operation = .unlock → UnlockTells tasks s ms i t) ∧
      ∀ k, tasks ≠ [] → (∀ t ∈ tasks, t.operation = .unlock ∧ t.key = k) →
        (∀ i t, tasks[i]? = some t →
          3 ≤ ms.countP (Move.isTurn i) ∧ (t.cancellable = true → .fire i ∉ ms)) →
        UnlockedOnce tasks s ms k :=
  ⟨fun _ _ ht ho => unlock_tells hs.wellFormed hms hd ht ho,
    fun _ hne hops hrun => unlocked_once hs.wellFormed hms hd hne hops hrun⟩

end

def unlocking : Task := ⟨.unlock, .named "ns" "c" none, .default, false⟩

/-- Two unlock calls between one that locks for the machine `a` and one that does for `b`. -/
def tenantsLeaving : List Task :=
  [.locking (.named "ns" "c" none) "a", unlocking, unlocking, .locking (.named "ns" "c" none) "b"]

/-- The machine `a` has locked. One unlock call reads its record, the other one removes it; the
machine `b` locks before the first one comes to its delete. -/
def latecomer : List Move :=
  [.turn 0, .turn 0, .turn 0, .turn 1, .turn 1, .turn 2, .turn 2, .turn 2, .turn 3, .turn 3,
    .turn 3, .turn 1]

/-- A record without a payload, and no machines. -/
def broken : Local :=
  ⟨(Memory.empty.insert ⟨"ns", "c-etcd-lock", none, .empty, none, .empty⟩).2, .empty⟩

/-- Two unlock calls read the record, and each deletes it. -/
def atOnce : List Move := [.turn 0, .turn 1, .turn 0, .turn 1, .turn 1, .turn 0]

theorem unlock_contended_latecomer :
    (((ofTasks tenantsLeaving .empty).after latecomer).Ended 2 (.answered true) ∧
      ((ofTasks tenantsLeaving .empty).after latecomer).Ended 1 (.answered false) ∧
      ∃ p n r, Replaced ((ofTasks tenantsLeaving .empty).history latecomer) 1 p n
        ⟨"ns", "c-etcd-lock"⟩ r) ∧
    UnlockedOnce [unlocking, unlocking] broken atOnce ⟨"ns", "c-etcd-lock"⟩ := by
  obtain ⟨htells, -⟩ := @unlock_contended tenantsLeaving .empty .empty latecomer
    (by simp [latecomer]) (delivered (by decide))
  have htrue : ((ofTasks tenantsLeaving .empty).after latecomer).Ended 2 (.answered true) :=
    ⟨_, rfl, rfl⟩
  have hfalse : ((ofTasks tenantsLeaving .empty).after latecomer).Ended 1 (.answered false) :=
    ⟨_, rfl, rfl⟩
  obtain ⟨p, n, _, r, -, -, -, -, hrep⟩ := (htells 1 unlocking rfl rfl).outrun hfalse
  obtain ⟨-, honce⟩ := @unlock_contended [unlocking, unlocking] broken (.insert .empty _) atOnce
    (by simp [atOnce]) (delivered (by decide))
  refine ⟨⟨htrue, hfalse, p, n, r, hrep⟩, honce ⟨"ns", "c-etcd-lock"⟩ nofun (by decide) ?_⟩
  intro i t ht
  have hlt := (List.getElem?_eq_some_iff.1 ht).1
  match i, hlt with
  | 0, _ | 1, _ =>
    cases ht
    exact ⟨by decide, nofun⟩

end Interleaving

end InitLock.Mutex
