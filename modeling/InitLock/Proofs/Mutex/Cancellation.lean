import InitLock.Proofs.Mutex.History
import Mathlib.Data.List.Induction

/-!
# Cancellation

A call looks at its token when it comes to a question. So it is cancelled just
if it comes to one with its token fired (`Interrupted`); from then on it asks
nothing, and since a call that has changed the store asks nothing more either
(`Moment.ended_of_effect`), a cancelled call has changed nothing. A call that is
never interrupted goes as if its token had never fired
(`Interleaving.after_unfired`). A call whose question is still out, such as one
to a machine lookup that hangs, is one that gets no turn.
-/

namespace InitLock.Mutex

namespace Actor

def pending? (a : Actor) : Option Question :=
  match a.task.next (a.stage.getD a.task.start.2) with
  | .asks q _ => some q
  | .stalled | .ended _ => none

def result? (a : Actor) : Option (Except Cancelled Bool) :=
  a.stage.bind fun stage => Call.result? ⟨a.task, stage⟩

def unfired (a : Actor) : Actor := { a with fired := false }

end Actor

namespace Interleaving

def result? (w : Interleaving) (i : Nat) : Option (Except Cancelled Bool) :=
  w.actors[i]?.bind Actor.result?

/-- The interleaving with a token of the call number `i` that has not fired. -/
def unfired (w : Interleaving) (i : Nat) : Interleaving := w.modify i Actor.unfired

/-- The move number `n` is a turn of the call number `i`, which has a question to ask, and its token
has fired before. -/
def Interrupted (w : Interleaving) (ms : List Move) (i n : Nat) : Prop :=
  ∃ fate a q, ms[n]? = some (.turn i fate) ∧ (w.after (ms.take n)).actors[i]? = some a ∧
    a.pending? = some q ∧ .fire i ∈ ms.take n

end Interleaving

/-! ## Turns of calls that can be cancelled -/

section
variable {t : Task} {a b : Actor} {stage stage' : Stage} {x : Moment} {e : Exchange}
  {es : List Event} {q : Question} {fate : Fate} {s : Local} {r : Run Local} {i : Nat}

theorem Actor.pending?_iff : (∃ q, a.pending? = some q) ↔
    Call.isOpen ⟨a.task, a.stage.getD a.task.start.2⟩ = true := by
  rw [Call.isOpen_iff]
  unfold pending?
  constructor
  · rintro ⟨q, h⟩
    split at h
    · next resume hq => exact ⟨_, resume, hq⟩
    · cases h
    · cases h
  · rintro ⟨q, resume, h⟩
    exact ⟨q, by rw [h]⟩

theorem Actor.result?_error {e : Cancelled} : a.result? = some (.error e) ↔
    a.stage = some (.ended .cancelled) ∧ e = a.task.cancelled := by
  obtain ⟨task, fired, o⟩ := a
  constructor
  · intro h
    obtain ⟨stage, hs, hr⟩ := Option.bind_eq_some_iff.1 h
    obtain rfl : o = some stage := hs
    unfold Call.result? at hr
    split at hr
    · cases hr
    · next ho =>
      have hended := Actor.stage_of_outcome? (a := ⟨task, fired, some stage⟩) ho
      cases hr
      exact ⟨hended, rfl⟩
    · cases hr
  · rintro ⟨hs, rfl⟩
    obtain rfl : o = some (.ended .cancelled) := hs
    rfl

/-- No answer cancels a call. -/
theorem Task.Leads.ne_cancelled (h : t.Leads stage e es stage') : stage' ≠ .ended .cancelled := by
  rintro rfl
  cases h with
  | lockRead _ hj | reread hj => cases hj

theorem Task.Leads.answers {o : Outcome} (h : t.Leads stage e es (.ended o))
    (ho : t.operation ≠ .inspect) : ∃ b, o = .answered b := by
  cases h with
  | lockRead _ hj | reread hj => cases hj <;> exact ⟨_, rfl⟩
  | observedHeld hi | observedMalformed hi | observedUnlocked hi | unobserved hi =>
    exact absurd hi ho
  | _ => exact ⟨_, rfl⟩

/-- A turn that ends a lock or unlock call lets it answer or cancels it. -/
theorem Advances.returns {o : Outcome} (h : Advances fate a s r) (ho : a.task.operation ≠ .inspect)
    (hr : r.call.stage = .ended o) : o = .cancelled ∨ ∃ b, o = .answered b := by
  cases h with
  | begun =>
    rcases a.first_stage (s := s) with hf | ⟨-, -, hf⟩ <;> rw [hf] at hr
    · rcases a.task.start_eq with hstart | hstart <;> rw [hstart] at hr <;> cases hr
      exact .inr ⟨_, rfl⟩
    · cases hr
      exact .inl rfl
  | cancelled =>
    cases hr
    exact .inl rfl
  | asked _ _ hl =>
    dsimp only at hr
    subst hr
    exact .inr (hl.answers ho)

/-- A turn cancels a call that has a question to ask and is to notice its token. -/
theorem Advances.cancels (h : Advances fate a s r) (hq : a.pending? = some q)
    (hn : a.noticed = true) : r.call.stage = .ended .cancelled := by
  have hopen := Actor.pending?_iff.1 ⟨q, hq⟩
  cases h with
  | begun hnone =>
    rw [hnone, Option.getD_none] at hopen
    rw [Actor.first, if_pos (by rw [hopen, hn]; rfl)]
    rfl
  | cancelled => rfl
  | asked _ hn' =>
    rw [hn] at hn'
    cases hn'

/-- No other turn cancels a call. -/
theorem Advances.of_cancelled (h : Advances fate a s r) (hr : r.call.stage = .ended .cancelled) :
    a.noticed = true ∧ ∃ q, a.pending? = some q := by
  rw [Actor.pending?_iff]
  cases h with
  | begun hnone =>
    rw [hnone, Option.getD_none]
    rcases a.first_stage (s := s) with hf | ⟨hn, hopen, -⟩
    · rw [hf] at hr
      rcases a.task.start_eq with hstart | hstart <;> rw [hstart] at hr <;> cases hr
    · exact ⟨hn, hopen⟩
  | cancelled hs hopen hn =>
    rw [hs, Option.getD_some]
    exact ⟨hn, hopen⟩
  | asked _ _ hl => exact absurd hr hl.ne_cancelled

theorem Moment.turned {x : Moment} (hm : x.move = .turn i fate)
    (ha : x.before.actors[i]? = some a) (hq : a.pending? = some q) :
    ∃ r, Advances fate a x.before.shared r ∧ x.after.actors[i]? = some (a.goTo r.call.stage) := by
  obtain ⟨w, m⟩ := x
  obtain rfl : m = _ := hm
  have hstep := w.stepped (.turn i fate)
  unfold Moment.after
  generalize w.step (.turn i fate) = o at hstep
  cases hstep with
  | idle _ _ h =>
    obtain ⟨stage, hs, hclosed⟩ := h a ha
    have hopen := Actor.pending?_iff.1 ⟨q, hq⟩
    rw [hs, Option.getD_some, hclosed] at hopen
    cases hopen
  | @turn _ _ _ r ha' hr =>
    rw [show w.actors[i]? = some a from ha] at ha'
    cases ha'
    refine ⟨r, hr, ?_⟩
    rw [Interleaving.getElem?_settle, if_pos rfl, show w.actors[i]? = some a from ha]
    rfl

end

namespace Interleaving

section
variable {tasks : List Task} {s : Local} {ms : List Move} {i n : Nat} {t : Task}

theorem fired_after (tasks : List Task) (s : Local) (ms : List Move) {i : Nat} {a : Actor}
    (ha : ((ofTasks tasks s).after ms).actors[i]? = some a) : a.fired = true ↔ .fire i ∈ ms := by
  induction ms using List.reverseRecOn generalizing a with
  | nil =>
    obtain ⟨t, -, rfl⟩ := of_getElem?_ofTasks ha
    simp
  | append_singleton ms m ih =>
    rw [after_concat] at ha
    obtain ⟨a₀, ha₀, hact⟩ := Moment.acted _ ha
    have hpast := ih ha₀
    rw [List.mem_append, List.mem_singleton]
    by_cases hm : m = .fire i
    · subst hm
      have hfire := getElem?_fire ((ofTasks tasks s).after ms) i i
      rw [show ((ofTasks tasks s).after ms).actors[i]? = some a₀ from ha₀] at hfire
      cases ha.symm.trans hfire
      simp
    · rw [or_iff_left (Ne.symm hm)]
      generalize (Moment.exchanges _ i) = es at hact
      cases hact with
      | rested | turned => exact hpast
      | fired h => exact absurd h hm

theorem Interrupted.append {w : Interleaving} (h : w.Interrupted ms i n) (ms' : List Move) :
    w.Interrupted (ms ++ ms') i n := by
  obtain ⟨fate, a, q, hm, ha, hq, hfire⟩ := h
  have hlt := (List.getElem?_eq_some_iff.1 hm).1
  have htake : (ms ++ ms').take n = ms.take n := List.take_append_of_le_length (Nat.le_of_lt hlt)
  refine ⟨fate, a, q, ?_, ?_, hq, ?_⟩
  · rwa [List.getElem?_append_left hlt]
  · rwa [htake]
  · rwa [htake]

/-- A call that is interrupted is cancelled. -/
theorem Interrupted.ended (ht : tasks[i]? = some t) (hc : t.cancellable = true)
    (h : (ofTasks tasks s).Interrupted ms i n) :
    ((ofTasks tasks s).after (ms.take (n + 1))).Ended i .cancelled := by
  obtain ⟨fate, a, q, hm, ha, hq, hfire⟩ := h
  obtain rfl := task_after ht ha
  have hn : a.noticed = true := by
    rw [Actor.noticed, (fired_after tasks s _ ha).2 hfire, hc]
    rfl
  obtain ⟨r, hr, hafter⟩ := Moment.turned (x := ⟨_, .turn i fate⟩) rfl ha hq
  rw [List.take_add_one, hm]
  exact ⟨_, after_concat (ofTasks tasks s) _ _ ▸ hafter, congrArg some (hr.cancels hq hn)⟩

/-- Only a call that is interrupted is cancelled. -/
theorem Ended.interrupted (h : ((ofTasks tasks s).after (ms.take n)).Ended i .cancelled) :
    ∃ m, (ofTasks tasks s).Interrupted ms i m := by
  induction n with
  | zero =>
    obtain ⟨a, ha, hs⟩ := h
    rw [List.take_zero] at ha
    obtain ⟨t, -, rfl⟩ := of_getElem?_ofTasks ha
    cases hs
  | succ n ih =>
    cases hx : ((ofTasks tasks s).history ms)[n]? with
    | none =>
      rw [after_take_succ_of_none hx] at h
      exact ih h
    | some x =>
      obtain ⟨-, hbefore, hafter⟩ := of_getElem?_history hx
      obtain ⟨b, hb, hs⟩ := h
      rw [← hafter] at hb
      obtain ⟨a, ha, hact⟩ := x.acted hb
      rw [hbefore] at ha
      generalize x.exchanges i = es at hact
      cases hact with
      | rested | fired => exact ih ⟨_, ha, hs⟩
      | @turned fate r hm hr =>
        obtain ⟨hn, q, hq⟩ := hr.of_cancelled (Option.some.inj hs)
        have hfired : a.fired = true := (Bool.and_eq_true_iff.1 hn).1
        rw [getElem?_history] at hx
        obtain ⟨m, hm', rfl⟩ := Option.map_eq_some_iff.1 hx
        obtain rfl : m = _ := hm
        exact ⟨n, fate, a, q, hm', ha, hq, (fired_after tasks s _ ha).1 hfired⟩

/-- A call whose token has fired asks nothing. -/
theorem silent_of_fired (ht : tasks[i]? = some t) (hc : t.cancellable = true)
    (hfire : .fire i ∈ ms.take n) {x : Moment} (hx : ((ofTasks tasks s).history ms)[n]? = some x) :
    x.exchanges i = [] := by
  obtain ⟨-, hbefore, -⟩ := of_getElem?_history hx
  by_contra hne
  obtain ⟨e, he⟩ := List.exists_mem_of_ne_nil _ hne
  obtain ⟨_, a, _, _, _, -, ha, -, -, -, -, -⟩ := x.asked he
  obtain ⟨b, -, hact⟩ := x.acted_before ha
  rw [hbefore] at ha
  obtain rfl := task_after ht ha
  have hfired := (fired_after tasks s _ ha).2 hfire
  generalize x.exchanges i = es at hact he
  cases hact with
  | rested | fired => cases he
  | turned _ hr =>
    cases hr with
    | begun => simp at he
    | cancelled => cases he
    | asked _ hn =>
      rw [Actor.noticed, hfired, hc] at hn
      cases hn

/-- A call that has been cancelled has changed nothing. -/
theorem Ended.unwritten (h : ((ofTasks tasks s).after ms).Ended i .cancelled) {x : Moment}
    (hx : x ∈ (ofTasks tasks s).history ms) {fate : Fate} (hm : x.move = .turn i fate) :
    x.effect = none := by
  cases heff : x.effect with
  | none => rfl
  | some effect =>
    obtain ⟨n, hlt, -, hafter⟩ := of_mem_history hx
    obtain ⟨b, hended⟩ := x.ended_of_effect heff hm
    rw [hafter] at hended
    have hended := ended_from hended (Nat.succ_le_of_lt hlt)
    rw [List.take_length] at hended
    cases h.unique hended

end

/-! ## Schedules in which a token does not fire -/

section
variable {w : Interleaving} {ms : List Move} {i : Nat} {a : Actor}

/-- A turn comes to the same without the token if the call does not notice it. -/
theorem advance_unfired (fate : Fate) (s : Local) (h : a.fired = true → a.pending? = none) :
    (advance fate a.unfired s).map (fun r => (r.call.stage, r.state)) =
      (advance fate a s).map fun r => (r.call.stage, r.state) := by
  obtain ⟨task, fired, stage⟩ := a
  cases fired with
  | false => rfl
  | true =>
    have hclosed : Call.isOpen ⟨task, stage.getD task.start.2⟩ = false := by
      rw [Bool.eq_false_iff]
      intro hopen
      obtain ⟨q, hq⟩ := Actor.pending?_iff (a := ⟨task, true, stage⟩).2 hopen
      rw [h rfl] at hq
      cases hq
    cases stage with
    | none =>
      have hopen : (Run.begin task true s).call.isOpen = false := hclosed
      have hopen' : (Run.begin task false s).call.isOpen = false := hclosed
      simp only [advance, Actor.unfired, hopen, hopen', Bool.false_and]
      rfl
    | some stage =>
      have hopen : Call.isOpen ⟨task, stage⟩ = false := hclosed
      simp only [advance, Actor.unfired, hopen]
      rfl

theorem turn_eq (w : Interleaving) (i : Nat) (fate : Fate) :
    (w.turn i fate).2 =
      ((w.actors[i]?.bind fun a => (advance fate a w.shared).map fun r =>
        (r.call.stage, r.state)).map fun p =>
          { w.modify i fun a => a.goTo p.1 with shared := p.2 }).getD w := by
  unfold turn
  cases w.actors[i]? with
  | none => rfl
  | some a =>
    simp only [Option.bind_some]
    cases advance fate a w.shared <;> rfl

theorem unfired_getElem? (w : Interleaving) (i j : Nat) :
    (w.unfired i).actors[j]? =
      w.actors[j]?.map fun a => if i = j then a.unfired else a := by
  simp only [unfired, modify, List.getElem?_modify]
  split <;> simp

/-- Changes of calls commute, on one call if the changes do. -/
theorem modify_comm {j : Nat} {f g : Actor → Actor} (h : i = j → ∀ a, f (g a) = g (f a)) :
    (w.modify j g).modify i f = (w.modify i f).modify j g := by
  have hactors : (w.actors.modify j g).modify i f = (w.actors.modify i f).modify j g := by
    refine List.ext_getElem? fun k => ?_
    simp only [List.getElem?_modify]
    by_cases hi : i = k
    · by_cases hj : j = k
      · have hfg := h (hi.trans hj.symm)
        cases w.actors[k]? <;> simp [hi, hj, hfg]
      · simp [hi, hj]
    · simp [hi]
  simp only [modify, hactors]

theorem step_unfired (m : Move) (hm : m ≠ .fire i)
    (h : ∀ fate a, m = .turn i fate → w.actors[i]? = some a → a.fired = true → a.pending? = none) :
    (w.step m).2.unfired i = ((w.unfired i).step m).2 := by
  cases m with
  | kill | revive | insert => rfl
  | fire j =>
    have hij : i ≠ j := fun he => hm (he ▸ rfl)
    exact modify_comm fun he => absurd he hij
  | turn j fate =>
    show (w.turn j fate).2.unfired i = ((w.unfired i).turn j fate).2
    have hadvance : ((w.unfired i).actors[j]?.bind fun a =>
        (advance fate a w.shared).map fun r => (r.call.stage, r.state)) =
          w.actors[j]?.bind fun a =>
            (advance fate a w.shared).map fun r => (r.call.stage, r.state) := by
      rw [unfired_getElem?]
      cases hj : w.actors[j]? with
      | none => rfl
      | some a =>
        simp only [Option.map_some, Option.bind_some]
        split
        · next hij =>
          subst hij
          exact advance_unfired fate w.shared (h fate a rfl hj)
        · rfl
    rw [turn_eq, turn_eq, show (w.unfired i).shared = w.shared from rfl, hadvance]
    generalize (w.actors[j]?.bind fun a =>
      (advance fate a w.shared).map fun r => (r.call.stage, r.state)) = o
    cases o with
    | none => rfl
    | some p =>
      have hcomm : (w.modify j fun a => a.goTo p.1).modify i Actor.unfired =
          (w.modify i Actor.unfired).modify j fun a => a.goTo p.1 := modify_comm fun _ _ => rfl
      exact congrArg (fun w' : Interleaving => { w' with shared := p.2 }) hcomm

theorem unfired_fire (w : Interleaving) (i : Nat) :
    (w.step (.fire i)).2.unfired i = w.unfired i := by
  have hactors : (w.actors.modify i fun a => { a with fired := true }).modify i Actor.unfired =
      w.actors.modify i Actor.unfired := List.modify_modify_eq ..
  simp only [step, unfired, modify, hactors]

/-- A call that is never interrupted, and all that goes on beside it, goes as if its token had never
fired. -/
theorem after_unfired {tasks : List Task} {s : Local}
    (h : ∀ n, ¬ (ofTasks tasks s).Interrupted ms i n) :
    ((ofTasks tasks s).after ms).unfired i = (ofTasks tasks s).after (ms.filter (· ≠ .fire i)) := by
  -- On the schedule from its end, since a prefix interrupts the call only if the whole does.
  induction ms using List.reverseRecOn with
  | nil =>
    have hactors : (ofTasks tasks s).actors.modify i Actor.unfired = (ofTasks tasks s).actors := by
      refine List.ext_getElem? fun j => ?_
      simp only [ofTasks, List.getElem?_modify, List.getElem?_map]
      cases tasks[j]? <;> simp [Actor.unfired]
    exact congrArg (fun actors => ({ actors, shared := s } : Interleaving)) hactors
  | append_singleton ms m ih =>
    have ih := ih fun n hn => h n (hn.append [m])
    rw [after_concat, List.filter_append]
    show (Interleaving.step _ _).2.unfired i = _
    by_cases hm : m = .fire i
    · subst hm
      rw [unfired_fire, ih]
      simp
    · have hone : [m].filter (· ≠ .fire i) = [m] := by simp [hm]
      rw [hone, after_concat, ← ih]
      refine step_unfired m hm fun fate a hturn ha hfired => ?_
      cases hq : a.pending? with
      | none => rfl
      | some q =>
        have htake : (ms ++ [m]).take ms.length = ms := List.take_left
        refine absurd ⟨fate, a, q, ?_, ?_, hq, ?_⟩ (h ms.length)
        · rw [List.getElem?_concat_length, hturn]
        · rwa [htake]
        · rw [htake]
          exact (fired_after tasks s ms ha).1 hfired

end

/-! ## What a call returns -/

section
variable {tasks : List Task} {s : Local} {ms : List Move} {i : Nat} {t : Task}

theorem result?_unfired (w : Interleaving) (i : Nat) : (w.unfired i).result? i = w.result? i := by
  rw [result?, unfired_getElem?]
  simp only [↓reduceIte]
  unfold result?
  cases w.actors[i]? <;> rfl

theorem result?_error (ht : tasks[i]? = some t) {e : Cancelled} :
    ((ofTasks tasks s).after ms).result? i = some (.error e) ↔
      ((ofTasks tasks s).after ms).Ended i .cancelled ∧ e = t.cancelled := by
  constructor
  · intro h
    obtain ⟨a, ha, hr⟩ := Option.bind_eq_some_iff.1 h
    obtain ⟨hs, rfl⟩ := Actor.result?_error.1 hr
    obtain rfl := task_after ht ha
    exact ⟨⟨a, ha, hs⟩, rfl⟩
  · rintro ⟨⟨a, ha, hs⟩, rfl⟩
    obtain rfl := task_after ht ha
    rw [result?, ha]
    exact Actor.result?_error.2 ⟨hs, rfl⟩

/-- A lock or unlock call that has ended has returned a boolean or that it was cancelled. -/
theorem Ended.returned {o : Outcome} (h : ((ofTasks tasks s).after ms).Ended i o)
    (ht : tasks[i]? = some t) (ho : t.operation ≠ .inspect) :
    ∃ r, ((ofTasks tasks s).after ms).result? i = some r := by
  obtain ⟨a, ha, hs⟩ := h
  have hend : o = .cancelled ∨ ∃ b, o = .answered b := by
    refine history_induct (P := fun _ w => ∀ a, w.actors[i]? = some a →
      a.task.operation ≠ .inspect → a.stage = some (.ended o) →
        o = .cancelled ∨ ∃ b, o = .answered b) ?_ ?_ a ha ?_ hs
    · intro a ha _ hs
      obtain ⟨t, -, rfl⟩ := of_getElem?_ofTasks ha
      cases hs
    · intro _ x _ ih b hb hop hs
      obtain ⟨a, ha, hact⟩ := x.acted hb
      generalize x.exchanges i = es at hact
      cases hact with
      | rested | fired => exact ih _ ha hop hs
      | turned _ hr => exact hr.returns hop (Option.some.inj hs)
    · obtain rfl := task_after ht ha
      exact ho
  obtain ⟨task, fired, stage⟩ := a
  obtain rfl : stage = _ := hs
  rw [result?, ha]
  rcases hend with rfl | ⟨b, rfl⟩ <;> exact ⟨_, rfl⟩

/-- How the token of the call number `i` and its turns decide what the call returns and does. -/
structure CancelsAtomically (tasks : List Task) (s : Local) (ms : List Move) (i : Nat) (t : Task) :
    Prop where
  error_iff : (∃ e, ((ofTasks tasks s).after ms).result? i = some (.error e)) ↔
    ∃ n, (ofTasks tasks s).Interrupted ms i n
  error_eq {e : Cancelled} (h : ((ofTasks tasks s).after ms).result? i = some (.error e)) :
    e = ⟨t.operation.name, t.cluster.ns, t.cluster.name⟩
  /-- A cancelled call has created and deleted nothing. -/
  unwritten {e : Cancelled} (h : ((ofTasks tasks s).after ms).result? i = some (.error e))
    {x : Moment} (hx : x ∈ (ofTasks tasks s).history ms) {fate : Fate}
    (hm : x.move = .turn i fate) : x.effect = none
  /-- No question is asked once the token has fired. -/
  silent {n : Nat} (h : .fire i ∈ ms.take n) {x : Moment}
    (hx : ((ofTasks tasks s).history ms)[n]? = some x) : x.exchanges i = []
  /-- No question is asked at all if the token fires before the first turn. -/
  unasked (h : ∀ n fate, ms[n]? = some (.turn i fate) → .fire i ∈ ms.take n) {x : Moment}
    (hx : x ∈ (ofTasks tasks s).history ms) : x.exchanges i = []
  /-- If the call is not interrupted, everything but its token is as if that had never fired. -/
  unaffected (h : ∀ n, ¬ (ofTasks tasks s).Interrupted ms i n) :
    ((ofTasks tasks s).after ms).unfired i =
        (ofTasks tasks s).after (ms.filter (· ≠ .fire i)) ∧
      ((ofTasks tasks s).after ms).result? i =
        ((ofTasks tasks s).after (ms.filter (· ≠ .fire i))).result? i
  returned {o : Outcome} (h : ((ofTasks tasks s).after ms).Ended i o) :
    ∃ r, ((ofTasks tasks s).after ms).result? i = some r

/-- Cancellation is atomic: whatever the calls, the first state, the schedule and the fates of the
questions, a lock or unlock call is cancelled just if its token has fired when it comes to a
question. It then has changed nothing and asks nothing more, and what it returns names its operation
and its cluster; otherwise it returns what it would have returned had its token not fired. -/
theorem cancellation_atomic (tasks : List Task) (s : Local) (ms : List Move) {i : Nat} {t : Task}
    (ht : tasks[i]? = some t) (hc : t.cancellable = true) (ho : t.operation ≠ .inspect) :
    CancelsAtomically tasks s ms i t where
  error_iff := by
    constructor
    · rintro ⟨e, h⟩
      have hended := ((result?_error ht).1 h).1
      rw [← List.take_length (l := ms)] at hended
      exact hended.interrupted
    · rintro ⟨n, h⟩
      have hlt : n < ms.length := by
        obtain ⟨_, _, _, hm, -⟩ := h
        exact (List.getElem?_eq_some_iff.1 hm).1
      have hended := ended_from (h.ended ht hc) (Nat.succ_le_of_lt hlt)
      rw [List.take_length] at hended
      exact ⟨_, (result?_error ht).2 ⟨hended, rfl⟩⟩
  error_eq h := ((result?_error ht).1 h).2
  unwritten h _ hx _ hm := ((result?_error ht).1 h).1.unwritten hx hm
  silent h _ hx := silent_of_fired ht hc h hx
  unasked h x hx := by
    obtain ⟨n, hn⟩ := List.mem_iff_getElem?.1 hx
    by_contra hne
    obtain ⟨e, he⟩ := List.exists_mem_of_ne_nil _ hne
    obtain ⟨fate, _, _, _, _, hm, -⟩ := x.asked he
    have hturn : ms[n]? = some (.turn i fate) := by
      rw [getElem?_history] at hn
      obtain ⟨m, hm', rfl⟩ := Option.map_eq_some_iff.1 hn
      rw [hm', ← hm]
    exact hne (silent_of_fired ht hc (h n fate hturn) hn)
  unaffected h := by
    have heq : ((ofTasks tasks s).after ms).unfired i = _ := after_unfired h
    refine ⟨heq, ?_⟩
    rw [← heq, result?_unfired]
  returned h := h.returned ht ho

/-- A call for the machine `a`, and one for `b` that can be cancelled. -/
def impatient : List Task :=
  [.locking (.named "ns" "c" none) "a", ⟨.lock "b", .named "ns" "c" none, .default, true⟩]

/-- The call for `a` locks; the one for `b` is told that `a` is gone, but its token fires before it
deletes the record. -/
def surrender : List Move :=
  [.turn 0, .turn 0, .turn 0, .turn 1, .turn 1, .turn 1 (.told false), .fire 1, .turn 1]

theorem cancellation_atomic_surrender :
    ((ofTasks impatient .empty).after surrender).result? 1 = some (.error ⟨"lock", "ns", "c"⟩) ∧
      (∀ x ∈ (ofTasks impatient .empty).history surrender, ∀ fate, x.move = .turn 1 fate →
        x.effect = none) ∧
      ((ofTasks impatient .empty).after surrender).shared.store.holder? ⟨"ns", "c-etcd-lock"⟩ =
        some "a" := by
  have h := cancellation_atomic impatient .empty surrender (i := 1) rfl rfl nofun
  obtain ⟨e, he⟩ := h.error_iff.2 ⟨7, .arrives, _, _, rfl, rfl, rfl, by decide⟩
  have hname := h.error_eq he
  subst hname
  exact ⟨he, fun x hx fate hm => h.unwritten he hx hm, rfl⟩

end

end Interleaving

end InitLock.Mutex
