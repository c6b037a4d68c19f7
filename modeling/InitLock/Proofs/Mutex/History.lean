import InitLock.Proofs.Mutex.Turn

/-!
# Histories

The history of a schedule lists its moments: the interleaving before each move,
and the move. A moment tells what a call asked and was answered
(`Moment.exchanges`) and what became of the store (`Moment.effect`). The store
changes by the effects and by direct inserts only (`Moment.stored`), a call by
its own turns only (`Moment.acted`).
-/

namespace InitLock

def Question.isStore : Question → Bool
  | .alive _ _ => false
  | .read _ | .create _ | .delete _ _ => true

namespace Mutex

open Store (Memory)
open Store.Memory (Effect Change)

/-- A step of a schedule and the interleaving before it. -/
structure Moment where
  before : Interleaving
  move : Move

/-- What a question with a fate does to the store. -/
def Local.effect (s : Local) (fate : Fate) (q : Question) : Option Effect :=
  match fate with
  | .refused _ => none
  | _ => s.store.effect q

/-- A call that is to lock a cluster for a machine and cannot be cancelled. -/
def Task.locking (cluster : Cluster) (machine : String) : Task :=
  ⟨.lock machine, cluster, .default, false⟩

namespace Interleaving

/-- Calls that have not begun. -/
def ofTasks (tasks : List Task) (s : Local) : Interleaving :=
  ⟨tasks.map fun t => ⟨t, false, none⟩, s⟩

def after (w : Interleaving) (ms : List Move) : Interleaving := (w.follow ms).2

/-- The call number `i` has ended. -/
def Ended (w : Interleaving) (i : Nat) (o : Outcome) : Prop :=
  ∃ a, w.actors[i]? = some a ∧ a.stage = some (.ended o)

def history (w : Interleaving) : List Move → List Moment
  | [] => []
  | m :: ms => ⟨w, m⟩ :: (w.step m).2.history ms

end Interleaving

namespace Moment

def after (x : Moment) : Interleaving := (x.before.step x.move).2

/-- What the call number `i` asked, and what it was answered. -/
def exchanges (x : Moment) (i : Nat) : List Exchange :=
  match (x.before.step x.move).1 with
  | some ⟨j, some r⟩ => if j = i then r.exchanges else []
  | _ => []

/-- The call number `i` asks the store, or else whether a machine exists. -/
def Asks (x : Moment) (i : Nat) (store : Bool) : Prop :=
  ∃ e ∈ x.exchanges i, e.question.isStore = store

def effect (x : Moment) : Option Effect :=
  match x.move with
  | .turn i fate => (x.exchanges i).head?.bind fun e => x.before.shared.effect fate e.question
  | _ => none

end Moment

def effects (h : List Moment) : List Effect := h.filterMap Moment.effect

/-! ## Schedules in two parts -/

namespace Interleaving

theorem after_append (w : Interleaving) (ms ms' : List Move) :
    w.after (ms ++ ms') = (w.after ms).after ms' := by
  induction ms generalizing w with
  | nil => rfl
  | cons m ms ih => exact ih (w.step m).2

theorem length_history (w : Interleaving) (ms : List Move) :
    (w.history ms).length = ms.length := by
  induction ms generalizing w with
  | nil => rfl
  | cons m ms ih => simp only [history, List.length_cons, ih]

theorem history_take (w : Interleaving) (ms : List Move) (n : Nat) :
    (w.history ms).take n = w.history (ms.take n) := by
  induction ms generalizing w n with
  | nil => simp only [history, List.take_nil]
  | cons m ms ih =>
    cases n with
    | zero => rfl
    | succ n => simp only [history, List.take_succ_cons, ih]

theorem after_concat (w : Interleaving) (ms : List Move) (m : Move) :
    w.after (ms ++ [m]) = (⟨w.after ms, m⟩ : Moment).after := by
  rw [after_append]; rfl

theorem getElem?_history (w : Interleaving) (ms : List Move) (n : Nat) :
    (w.history ms)[n]? = ms[n]?.map fun m => ⟨w.after (ms.take n), m⟩ := by
  induction ms generalizing w n with
  | nil => rfl
  | cons m ms ih =>
    cases n with
    | zero => rfl
    | succ n => exact ih _ n

/-- The moment number `n` leads from the interleaving after `n` moves to the one after `n + 1`. -/
theorem of_getElem?_history {w : Interleaving} {ms : List Move} {n : Nat} {x : Moment}
    (h : (w.history ms)[n]? = some x) :
    x.move ∈ ms ∧ x.before = w.after (ms.take n) ∧ x.after = w.after (ms.take (n + 1)) := by
  rw [getElem?_history] at h
  obtain ⟨m, hm, rfl⟩ := Option.map_eq_some_iff.1 h
  refine ⟨List.mem_of_getElem? hm, rfl, ?_⟩
  rw [List.take_add_one, hm]
  exact (after_concat _ _ _).symm

theorem move_mem_of_mem_history {w : Interleaving} {ms : List Move} {x : Moment}
    (h : x ∈ w.history ms) : x.move ∈ ms := by
  obtain ⟨n, hn⟩ := List.mem_iff_getElem?.1 h
  exact (of_getElem?_history hn).1

theorem mem_history_concat (w : Interleaving) (ms : List Move) (m : Move) :
    (⟨w.after ms, m⟩ : Moment) ∈ w.history (ms ++ [m]) := by
  refine List.mem_iff_getElem?.2 ⟨ms.length, ?_⟩
  rw [getElem?_history, List.getElem?_concat_length, List.take_left]
  rfl

/-- A moment of a history is that of one of the moves. -/
theorem of_mem_history {w : Interleaving} {ms : List Move} {x : Moment} (h : x ∈ w.history ms) :
    ∃ n < ms.length, x.before = w.after (ms.take n) ∧ x.after = w.after (ms.take (n + 1)) := by
  obtain ⟨n, hn⟩ := List.mem_iff_getElem?.1 h
  have hlt := (List.getElem?_eq_some_iff.1 hn).1
  rw [length_history] at hlt
  exact ⟨n, hlt, (of_getElem?_history hn).2⟩

theorem of_getElem?_ofTasks {tasks : List Task} {s : Local} {i : Nat} {a : Actor}
    (h : (ofTasks tasks s).actors[i]? = some a) :
    ∃ t, tasks[i]? = some t ∧ a = ⟨t, false, none⟩ := by
  rw [ofTasks, List.getElem?_map] at h
  obtain ⟨t, ht, rfl⟩ := Option.map_eq_some_iff.1 h
  exact ⟨t, ht, rfl⟩

theorem after_take_succ_of_none {w : Interleaving} {ms : List Move} {n : Nat}
    (h : (w.history ms)[n]? = none) : w.after (ms.take (n + 1)) = w.after (ms.take n) := by
  rw [List.getElem?_eq_none_iff, length_history] at h
  rw [List.take_of_length_le h, List.take_of_length_le (Nat.le_succ_of_le h)]

/-- What holds of the empty history and is kept by every moment holds of the whole history. -/
theorem history_induct {P : List Moment → Interleaving → Prop} {w : Interleaving} {ms : List Move}
    (h : P [] w) (hstep : ∀ h x, x ∈ w.history ms → P h x.before → P (h ++ [x]) x.after) :
    P (w.history ms) (w.after ms) := by
  -- Moments are added at the end, but schedules are lists: induct on what is left of the schedule.
  suffices hsuffix : ∀ (ms : List Move) (w : Interleaving) (past : List Moment), P past w →
      (∀ h x, x ∈ w.history ms → P h x.before → P (h ++ [x]) x.after) →
      P (past ++ w.history ms) (w.after ms) from hsuffix ms w [] h hstep
  intro ms
  induction ms with
  | nil => intro w past h _; rwa [history, List.append_nil]
  | cons m ms ih =>
    intro w past h hstep
    have hm := hstep past ⟨w, m⟩ (List.mem_cons_self ..) h
    have := ih _ _ hm fun h x hx => hstep h x (List.mem_cons_of_mem _ hx)
    rwa [List.append_assoc] at this

end Interleaving

/-! ## One more moment -/

section
variable {h : List Moment} {x y : Moment} {p : Nat}

theorem getElem?_concat_of_lt (hy : h[p]? = some y) : (h ++ [x])[p]? = some y := by
  rw [List.getElem?_append_left (List.getElem?_eq_some_iff.1 hy).1]
  exact hy

theorem of_getElem?_concat (hy : (h ++ [x])[p]? = some y) :
    h[p]? = some y ∨ p = h.length ∧ y = x := by
  rcases Nat.lt_or_ge p h.length with hlt | hge
  · rw [List.getElem?_append_left hlt] at hy
    exact .inl hy
  · rw [List.getElem?_append_right hge, List.getElem?_singleton] at hy
    split at hy
    · next hp => cases hy; exact .inr ⟨by omega, rfl⟩
    · cases hy

theorem filterMap_concat {α : Type} (f : Moment → Option α) :
    (h ++ [x]).filterMap f = h.filterMap f ++ (f x).toList := by
  rw [List.filterMap_append]
  cases hx : f x with
  | none => rw [List.filterMap_cons_none hx]; rfl
  | some a => rw [List.filterMap_cons_some hx]; rfl

theorem effects_concat : effects (h ++ [x]) = effects h ++ x.effect.toList := filterMap_concat _

end

/-! ## Stores along a history -/

namespace Moment

/-- What a moment does to the store. -/
inductive Stored (x : Moment) : Option Effect → Memory → Prop
  | kept : Stored x none x.before.shared.store
  | inserted (r : Record) (hm : x.move = .insert r) : Stored x none (x.before.shared.store.store r)
  | created (r : Record) (h : x.before.shared.store.records.get? r.key = none) :
    Stored x (some (.creates { r with uid := some x.before.shared.store.nextUid }))
      { x.before.shared.store.store r with creates := x.before.shared.store.creates + 1 }
  | removed (k : Key) (r : Record) (h : x.before.shared.store.records.get? k = some r) :
    Stored x (some (.removes k r))
      { x.before.shared.store with
        records := x.before.shared.store.records.erase k
        deletes := x.before.shared.store.deletes + 1 }

theorem stored_answer (x : Moment) (q : Question) :
    Stored x (x.before.shared.store.effect q) (x.before.shared.answer q).2.store := by
  cases q with
  | read | alive => exact .kept
  | create r =>
    have h := x.before.shared.store.created r
    simp only [Memory.effect, Local.answer]
    cases hc : x.before.shared.store.create r
    rw [hc] at h
    cases h with
    | unnamed | taken => exact .kept
    | ok _ _ h => exact .created r h
  | delete k u =>
    have h := x.before.shared.store.deleted k u
    simp only [Memory.effect, Local.answer]
    cases hc : x.before.shared.store.delete k u
    rw [hc] at h
    cases h with
    | notFound | conflict => exact .kept
    | ok r h => simp only [h]; exact .removed k r h

theorem stored_meet (x : Moment) (fate : Fate) (q : Question) :
    Stored x (x.before.shared.effect fate q) (x.before.shared.meet fate q).2.store := by
  cases fate with
  | arrives | lost => exact stored_answer x q
  | refused => exact .kept
  | told =>
    cases q with
    | alive => exact .kept
    | read k => exact stored_answer x (.read k)
    | create r => exact stored_answer x (.create r)
    | delete k u => exact stored_answer x (.delete k u)

theorem stored_advances (x : Moment) {fate : Fate} {a : Actor} {r : Run Local}
    (h : Advances fate a x.before.shared r) :
    Stored x (r.exchanges.head?.bind fun e => x.before.shared.effect fate e.question)
      r.state.store := by
  cases h with
  | begun => simpa using Stored.kept
  | cancelled => exact .kept
  | asked _ _ _ hm =>
    rw [hm.state]
    exact stored_meet x fate _

/-- The store changes by effects and direct inserts only. -/
theorem stored (x : Moment) : Stored x x.effect x.after.shared.store := by
  obtain ⟨w, m⟩ := x
  have h := w.stepped m
  simp only [effect, exchanges, after]
  generalize w.step m = o at h
  cases h with
  | idle => simpa using Stored.kept
  | fire | kill | revive => exact .kept
  | insert r => exact .inserted r rfl
  | turn i fate ha hr =>
    simp only [↓reduceIte]
    exact stored_advances ⟨w, _⟩ hr

theorem change (x : Moment) : Change x.before.shared.store x.after.shared.store := by
  have h := x.stored
  generalize x.effect = e, x.after.shared.store = t at h
  cases h with
  | kept => exact .none
  | inserted r => exact .insert r
  | created r h => exact .create r h
  | removed k r h => exact .delete k r h

theorem asked_of_effect (x : Moment) {effect : Effect} (h : x.effect = some effect) :
    ∃ i fate e, x.move = .turn i fate ∧ e ∈ x.exchanges i ∧
      x.before.shared.store.effect e.question = some effect := by
  obtain ⟨w, m⟩ := x
  cases m with
  | turn i fate =>
    obtain ⟨e, he, heff⟩ := Option.bind_eq_some_iff.1 h
    refine ⟨i, fate, e, rfl, List.mem_of_mem_head? he, ?_⟩
    cases fate with
    | arrives | lost | told => exact heff
    | refused => cases heff
  | fire | kill | revive | insert => cases h

theorem get?_of_removes (x : Moment) {k : Key} {r : Record} (h : x.effect = some (.removes k r)) :
    x.before.shared.store.records.get? k = some r ∧
      x.after.shared.store.records.get? k = none := by
  have hx := x.stored
  rw [h] at hx
  generalize x.after.shared.store = t at hx ⊢
  cases hx with
  | removed _ _ hr => exact ⟨hr, by simp only [Table.get?_erase, ↓reduceIte]⟩

/-- A record stays under its key unless it is removed or a record is inserted. -/
theorem kept_or_removed (x : Moment) (hm : ∀ r, x.move ≠ .insert r) {k : Key} {r : Record}
    (h : x.before.shared.store.records.get? k = some r) :
    x.after.shared.store.records.get? k = some r ∨ x.effect = some (.removes k r) := by
  have hx := x.stored
  generalize x.effect = e, x.after.shared.store = t at hx ⊢
  cases hx with
  | kept => exact .inl h
  | inserted r' hins => exact absurd hins (hm r')
  | created r' hnone =>
    refine .inl ?_
    have hk : k ≠ r'.key := by
      rintro rfl
      rw [h] at hnone
      cases hnone
    exact (Memory.get?_store ..).trans ((if_neg hk).trans h)
  | removed k' r' h' =>
    by_cases hk : k = k'
    · subst hk
      rw [h] at h'
      cases h'
      exact .inr rfl
    · refine .inl ?_
      simpa only [Table.get?_erase, hk, ↓reduceIte] using h

theorem counts (x : Moment) :
    x.after.shared.store.creates =
        x.before.shared.store.creates + x.effect.toList.countP Effect.isCreate ∧
      x.after.shared.store.deletes =
        x.before.shared.store.deletes + x.effect.toList.countP (!Effect.isCreate ·) := by
  have h := x.stored
  generalize x.effect = e, x.after.shared.store = t at h ⊢
  cases h <;> exact ⟨rfl, rfl⟩

/-! ## Calls along a history -/

theorem not_asks_of_nil (x : Moment) {i : Nat} {store : Bool} (h : x.exchanges i = []) :
    ¬ x.Asks i store := by
  rintro ⟨e, he, -⟩
  rw [h] at he
  cases he

theorem asks_iff (x : Moment) {i : Nat} {e : Exchange} {store : Bool} (h : x.exchanges i = [e]) :
    x.Asks i store ↔ e.question.isStore = store := by
  simp only [Asks, h, List.mem_singleton, exists_eq_left]

/-- What a moment does to the call number `i`. -/
inductive Acted (x : Moment) (i : Nat) (a : Actor) : Actor → List Exchange → Prop
  | rested : Acted x i a a []
  | fired (hm : x.move = .fire i) : Acted x i a { a with fired := true } []
  | turned {fate : Fate} {r : Run Local} (hm : x.move = .turn i fate)
    (hr : Advances fate a x.before.shared r) (hs : x.after.shared = r.state) :
    Acted x i a (a.goTo r.call.stage) r.exchanges

/-- A call changes by its own turns only, and when its token fires. -/
theorem acted (x : Moment) {i : Nat} {b : Actor} (hb : x.after.actors[i]? = some b) :
    ∃ a, x.before.actors[i]? = some a ∧ Acted x i a b (x.exchanges i) := by
  obtain ⟨w, m⟩ := x
  have h := w.stepped m
  have hafter : (⟨w, m⟩ : Moment).after = (w.step m).2 := rfl
  simp only [exchanges]
  rw [hafter] at hb
  generalize ho : w.step m = o at h hb hafter
  cases h with
  | idle | kill | revive | insert => exact ⟨b, hb, .rested⟩
  | fire j =>
    rw [Interleaving.getElem?_fire] at hb
    obtain ⟨a, ha, rfl⟩ := Option.map_eq_some_iff.1 hb
    refine ⟨a, ha, ?_⟩
    split
    · next hj => subst hj; exact .fired rfl
    · exact .rested
  | turn j fate ha hr =>
    rw [Interleaving.getElem?_settle] at hb
    dsimp only
    split at hb
    · next hj =>
      subst hj
      rw [ha] at hb
      cases hb
      rw [if_pos rfl]
      exact ⟨_, ha, .turned rfl hr (congrArg Interleaving.shared hafter)⟩
    · next hj =>
      rw [if_neg hj]
      exact ⟨b, hb, .rested⟩

/-- An exchange of a call takes it to its next stage. -/
theorem asked (x : Moment) {i : Nat} {e : Exchange} (h : e ∈ x.exchanges i) :
    ∃ fate a stage es stage', x.move = .turn i fate ∧ x.before.actors[i]? = some a ∧
      a.stage = some stage ∧ a.task.Leads stage e es stage' ∧
      Meets fate x.before.shared e x.after.shared ∧ x.exchanges i = [e] ∧
      x.after.actors[i]? = some (a.goTo stage') := by
  obtain ⟨w, m⟩ := x
  have hstep := w.stepped m
  have hafter : (⟨w, m⟩ : Moment).after = (w.step m).2 := rfl
  rw [hafter]
  simp only [exchanges] at h ⊢
  generalize w.step m = o at hstep h hafter
  cases hstep with
  | idle | fire | kill | revive | insert => cases h
  | turn j fate ha hr =>
    dsimp only at h ⊢
    split at h
    · next hj =>
      subst hj
      rw [if_pos rfl, Interleaving.getElem?_settle, if_pos rfl, ha]
      cases hr with
      | begun => simp at h
      | cancelled => cases h
      | asked hstage _ hl hm =>
        cases List.mem_singleton.1 h
        exact ⟨fate, _, _, _, _, rfl, rfl, hstage, hl, hm, rfl, rfl⟩
    · cases h

theorem Acted.eq_of_turn {x : Moment} {i j : Nat} {fate : Fate} {a b : Actor} {es : List Exchange}
    (h : Acted x j a b es) (hm : x.move = .turn i fate) (hji : j ≠ i) : b = a := by
  cases h with
  | rested => rfl
  | fired hm' =>
    rw [hm] at hm'
    cases hm'
  | turned hm' =>
    rw [hm] at hm'
    cases hm'
    exact absurd rfl hji

theorem Acted.task_eq {x : Moment} {i : Nat} {a b : Actor} {es : List Exchange}
    (h : Acted x i a b es) : b.task = a.task := by
  cases h <;> rfl

theorem Acted.fits {x : Moment} {i : Nat} {a b : Actor} {es : List Exchange}
    (h : Acted x i a b es) (ha : a.Fits) : b.Fits := by
  cases h with
  | rested | fired => exact ha
  | turned hm hr => exact hr.fits ha

theorem length_actors (x : Moment) : x.after.actors.length = x.before.actors.length := by
  obtain ⟨w, m⟩ := x
  have h := w.stepped m
  unfold after
  generalize w.step m = o at h
  cases h with
  | idle | kill | revive | insert => rfl
  | fire => exact List.length_modify ..
  | turn => exact List.length_modify ..

theorem acted_before (x : Moment) {i : Nat} {a : Actor} (ha : x.before.actors[i]? = some a) :
    ∃ b, x.after.actors[i]? = some b ∧ Acted x i a b (x.exchanges i) := by
  have hlt := (List.getElem?_eq_some_iff.1 ha).1
  rw [← x.length_actors] at hlt
  have hb := List.getElem?_eq_getElem hlt
  obtain ⟨a', ha', hact⟩ := x.acted hb
  rw [ha] at ha'
  cases ha'
  exact ⟨_, hb, hact⟩

theorem Acted.ended {x : Moment} {i : Nat} {a b : Actor} {es : List Exchange} {o : Outcome}
    (h : Acted x i a b es) (hs : a.stage = some (.ended o)) :
    b.stage = some (.ended o) ∧ es = [] := by
  cases h with
  | rested | fired => exact ⟨hs, rfl⟩
  | turned _ hr =>
    cases hr with
    | begun h =>
      rw [hs] at h
      cases h
    | cancelled h hopen =>
      rw [hs] at h
      cases h
      cases hopen
    | asked h _ hl =>
      rw [hs] at h
      cases h
      cases hl.isOpen

theorem stays_ended (x : Moment) {i : Nat} {o : Outcome} (h : x.before.Ended i o) :
    x.after.Ended i o ∧ x.exchanges i = [] := by
  obtain ⟨a, ha, hs⟩ := h
  obtain ⟨b, hb, hact⟩ := x.acted_before ha
  obtain ⟨hs', hnil⟩ := hact.ended hs
  exact ⟨⟨b, hb, hs'⟩, hnil⟩

theorem ended_stays (x : Moment) {a : Actor} (ha : a ∈ x.before.actors) {o : Outcome}
    (hs : a.stage = some (.ended o)) :
    ∃ b ∈ x.after.actors, b.task = a.task ∧ b.stage = some (.ended o) := by
  obtain ⟨i, hi⟩ := List.mem_iff_getElem?.1 ha
  obtain ⟨b, hb, hact⟩ := x.acted_before hi
  exact ⟨b, List.mem_of_getElem? hb, hact.task_eq, (hact.ended hs).1⟩

/-- A call that changes the store has ended, whether it gets the answer or not. -/
theorem ended_of_effect (x : Moment) {i : Nat} {fate : Fate} {effect : Effect}
    (h : x.effect = some effect) (hm : x.move = .turn i fate) :
    ∃ b, x.after.Ended i (.answered b) := by
  obtain ⟨_, _, ⟨q, o⟩, hm', he, heff⟩ := x.asked_of_effect h
  rw [hm] at hm'
  cases hm'
  obtain ⟨_, a, stage, es, stage', hm', -, -, hl, hmeet, -, hafter⟩ := x.asked he
  rw [hm] at hm'
  cases hm'
  suffices hended : ∃ b, stage' = Task.answer b by
    obtain ⟨b, rfl⟩ := hended
    exact ⟨b, _, hafter, rfl⟩
  have ho := hmeet.answer
  dsimp only at ho
  subst ho
  cases effect with
  | creates r =>
    obtain ⟨r', rfl, hok⟩ := Memory.create_of_effect heff
    refine hl.ended_of_create fun k hk => ?_
    cases fate with
    | arrives | told =>
      have hcreate : (x.before.shared.store.create r').1 = .error (.alreadyExists k) := hk
      rw [hok] at hcreate
      cases hcreate
    | lost | refused => cases hk
  | removes k r =>
    obtain ⟨u, rfl, -⟩ := Memory.delete_of_effect heff
    exact hl.ended_of_delete

end Moment

/-- The counters of the store count the effects along a history. -/
theorem Interleaving.counts (w : Interleaving) (ms : List Move) :
    (w.after ms).shared.store.creates =
        w.shared.store.creates + (effects (w.history ms)).countP Effect.isCreate ∧
      (w.after ms).shared.store.deletes =
        w.shared.store.deletes + (effects (w.history ms)).countP (!Effect.isCreate ·) := by
  refine history_induct (P := fun h w' =>
    w'.shared.store.creates = w.shared.store.creates + (effects h).countP Effect.isCreate ∧
      w'.shared.store.deletes = w.shared.store.deletes + (effects h).countP (!Effect.isCreate ·))
    ⟨rfl, rfl⟩ fun h x _ ⟨hc, hd⟩ => ?_
  rw [effects_concat, List.countP_append, List.countP_append, ← Nat.add_assoc, ← Nat.add_assoc,
    ← hc, ← hd]
  exact x.counts

theorem Interleaving.length_actors_after (w : Interleaving) (ms : List Move) :
    (w.after ms).actors.length = w.actors.length := by
  refine history_induct (P := fun _ w' => w'.actors.length = w.actors.length) rfl ?_
  intro _ x _ hx
  rw [x.length_actors, hx]

namespace Interleaving

variable {w : Interleaving} {ms : List Move} {i n m : Nat} {o : Outcome}

theorem ended_from (h : (w.after (ms.take n)).Ended i o) (hnm : n ≤ m) :
    (w.after (ms.take m)).Ended i o := by
  induction hnm with
  | refl => exact h
  | @step m _ ih =>
    cases hx : (w.history ms)[m]? with
    | none =>
      rw [after_take_succ_of_none hx]
      exact ih
    | some x =>
      obtain ⟨-, hbefore, hafter⟩ := of_getElem?_history hx
      rw [← hafter]
      rw [← hbefore] at ih
      exact (x.stays_ended ih).1

theorem Ended.unique {o' : Outcome} (h : w.Ended i o) (h' : w.Ended i o') : o = o' := by
  obtain ⟨a, ha, hs⟩ := h
  obtain ⟨a', ha', hs'⟩ := h'
  rw [ha] at ha'
  cases ha'
  rw [hs] at hs'
  cases hs'
  rfl

end Interleaving

/-- Every call of a schedule is of its task and at a stage that fits the task. -/
theorem Interleaving.fits_after (tasks : List Task) (s : Local) (ms : List Move) {i : Nat}
    {a : Actor} (ha : ((ofTasks tasks s).after ms).actors[i]? = some a) :
    tasks[i]? = some a.task ∧ a.Fits := by
  refine history_induct (P := fun _ w => ∀ a, w.actors[i]? = some a →
    tasks[i]? = some a.task ∧ a.Fits) ?_ ?_ a ha
  · intro a ha
    obtain ⟨t, ht, rfl⟩ := of_getElem?_ofTasks ha
    exact ⟨ht, nofun⟩
  · intro _ x _ ih b hb
    obtain ⟨a, ha, hact⟩ := x.acted hb
    exact ⟨hact.task_eq ▸ (ih a ha).1, hact.fits (ih a ha).2⟩

theorem Interleaving.task_after {tasks : List Task} {s : Local} {ms : List Move} {i : Nat}
    {t : Task} {a : Actor} (ht : tasks[i]? = some t)
    (ha : ((ofTasks tasks s).after ms).actors[i]? = some a) :
    t = a.task :=
  Option.some.inj (ht.symm.trans (fits_after tasks s ms ha).1)

end Mutex

end InitLock
