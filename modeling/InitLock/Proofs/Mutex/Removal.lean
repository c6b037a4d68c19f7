import InitLock.Proofs.Mutex.History

/-!
# Removals

A call that is about to delete a record has read that very incarnation, and it
still is where it was read or is gone for good (`Sighted`). A lock call has
moreover been told that the machine the record names is gone (`Told`). `Backed`
says this stage by stage and every moment keeps it, so each removal is of the
incarnation that its call read, which has been under its key ever since.
-/

namespace InitLock.Mutex

open Store (Memory)

/-- The call number `i` has read the record `r` under the key `k` at the moment number `p`. -/
def ReadAt (h : List Moment) (i p : Nat) (k : Key) (r : Record) : Prop :=
  ∃ x, h[p]? = some x ∧ x.exchanges i = [⟨.read k, some (.ok r)⟩]

/-- The record has been under the key since the moment number `p`. -/
def StaysFrom (h : List Moment) (p : Nat) (k : Key) (r : Record) : Prop :=
  ∀ q y, p ≤ q → h[q]? = some y → y.before.shared.store.records.get? k = some r

/-- The call number `i` has been told at the moment number `q` that the machine does not exist, and
this is the only time it has asked for one. -/
structure Told (h : List Moment) (i q : Nat) (ns machine : String) : Prop where
  told : ∃ x, h[q]? = some x ∧ x.exchanges i = [⟨.alive ns machine, some (.ok false)⟩]
  only {m : Nat} {y : Moment} (hy : h[m]? = some y) (ha : y.Asks i false) : m = q

/-- The call number `i` has not asked whether a machine exists. -/
def Unasked (h : List Moment) (i : Nat) : Prop := ∀ y ∈ h, ¬ y.Asks i false

/-- The call number `i` has read the record, which is there ever since or is gone. -/
structure Sighted (h : List Moment) (s : Memory) (i p : Nat) (k : Key) (r : Record) : Prop where
  read : ReadAt h i p k r
  keyed : r.key = k
  given : s.Given r.uid
  fate : StaysFrom h p k r ∧ s.records.get? k = some r ∨ s.Gone k r.uid

/-- What a call at a stage has read and been told. -/
def Backed (h : List Moment) (s : Memory) (i : Nat) (t : Task) : Option Stage → Prop
  | none | some .reading | some .creating | some .rereading => Unasked h i
  | some (.checking r _) | some (.deleting r none) =>
    Unasked h i ∧ ∃ p, Sighted h s i p t.key r
  | some (.deleting r (some holder)) =>
    ∃ p q, p < q ∧ Sighted h s i p t.key r ∧ Told h i q t.lookupNs holder
  | some .stalled | some (.ended _) => True

/-! ## One more moment -/

section
variable {h : List Moment} {x : Moment} {i p q : Nat} {k : Key} {r : Record}

theorem ReadAt.lt (hr : ReadAt h i p k r) : p < h.length := by
  obtain ⟨_, hx, _⟩ := hr
  exact (List.getElem?_eq_some_iff.1 hx).1

theorem ReadAt.concat (hr : ReadAt h i p k r) : ReadAt (h ++ [x]) i p k r := by
  obtain ⟨y, hy, he⟩ := hr
  exact ⟨y, getElem?_concat_of_lt hy, he⟩

theorem StaysFrom.concat (hs : StaysFrom h p k r)
    (hx : x.before.shared.store.records.get? k = some r) : StaysFrom (h ++ [x]) p k r := by
  intro q y hp hy
  rcases of_getElem?_concat hy with hy | ⟨-, rfl⟩
  · exact hs q y hp hy
  · exact hx

theorem Unasked.concat (hu : Unasked h i) (hx : ¬ x.Asks i false) : Unasked (h ++ [x]) i := by
  intro y hy
  rcases List.mem_append.1 hy with hy | hy
  · exact hu y hy
  · cases List.mem_singleton.1 hy
    exact hx

theorem Told.concat {ns machine : String} (ht : Told h i q ns machine) (hx : ¬ x.Asks i false) :
    Told (h ++ [x]) i q ns machine where
  told := by
    obtain ⟨y, hy, he⟩ := ht.told
    exact ⟨y, getElem?_concat_of_lt hy, he⟩
  only {m y} hy ha := by
    rcases of_getElem?_concat hy with hy | ⟨-, rfl⟩
    · exact ht.only hy ha
    · exact absurd ha hx

theorem Unasked.told {ns machine : String} (hu : Unasked h i)
    (hx : x.exchanges i = [⟨.alive ns machine, some (.ok false)⟩]) :
    Told (h ++ [x]) i h.length ns machine where
  told := ⟨x, List.getElem?_concat_length, hx⟩
  only {m y} hy ha := by
    rcases of_getElem?_concat hy with hy | ⟨rfl, -⟩
    · exact absurd ha (hu y (List.mem_of_getElem? hy))
    · rfl

/-- What has been read is still there after a moment, or gone for good. -/
theorem Sighted.concat (hx : x.before.shared.store.WellFormed)
    (hs : Sighted h x.before.shared.store i p k r) :
    Sighted (h ++ [x]) x.after.shared.store i p k r where
  read := hs.read.concat
  keyed := hs.keyed
  given := x.change.given hs.given
  fate := by
    rcases hs.fate with ⟨hstays, hr⟩ | hgone
    · rcases x.change.kept_or_gone hx hr with hr' | hgone
      · exact .inl ⟨hstays.concat hr, hr'⟩
      · exact .inr hgone
    · exact .inr (x.change.gone hgone)

theorem Sighted.of_read (hx : x.before.shared.store.WellFormed) {fate : Fate}
    (he : x.exchanges i = [⟨.read k, some (.ok r)⟩])
    (hm : Meets fate x.before.shared ⟨.read k, some (.ok r)⟩ x.after.shared) :
    Sighted (h ++ [x]) x.after.shared.store i h.length k r where
  read := ⟨x, List.getElem?_concat_length, he⟩
  keyed := hx.keyed hm.read_ok
  given := x.change.given (hx.given hm.read_ok)
  fate := by
    refine .inl ⟨fun q y hq hy => ?_, ?_⟩
    · rcases of_getElem?_concat hy with hy | ⟨-, rfl⟩
      · have := (List.getElem?_eq_some_iff.1 hy).1
        omega
      · exact hm.read_ok
    · rw [hm.read_state]
      exact hm.read_ok

end

/-! ## Calls are backed -/

section
variable {h : List Moment} {x : Moment} {i : Nat} {t : Task}

theorem Backed.concat (hx : x.before.shared.store.WellFormed) (hq : ¬ x.Asks i false)
    {stage : Option Stage} (hb : Backed h x.before.shared.store i t stage) :
    Backed (h ++ [x]) x.after.shared.store i t stage := by
  match stage with
  | none | some .reading | some .creating | some .rereading => exact Unasked.concat hb hq
  | some (.checking r _) | some (.deleting r none) =>
    obtain ⟨hu, p, hs⟩ := hb
    exact ⟨hu.concat hq, p, hs.concat hx⟩
  | some (.deleting r (some holder)) =>
    obtain ⟨p, q, hpq, hs, ht⟩ := hb
    exact ⟨p, q, hpq, hs.concat hx, ht.concat hq⟩
  | some .stalled | some (.ended _) => exact trivial

theorem Backed.ended {s : Memory} {o : Outcome} : Backed h s i t (some (.ended o)) := trivial

theorem Task.Judged.backed {s : Memory} {p : Nat} {r : Record} {es : List Event} {stage : Stage}
    (hj : Judged t.machine r es stage) (hu : Unasked h i) (hs : Sighted h s i p t.key r) :
    Backed h s i t (some stage) := by
  cases hj with
  | malformed | held => exact .ended
  | other => exact ⟨hu, p, hs⟩

theorem Task.Leads.backed (hx : x.before.shared.store.WellFormed) {stage stage' : Stage}
    {e : Exchange} {es : List Event} {fate : Fate} (hl : t.Leads stage e es stage')
    (hm : Meets fate x.before.shared e x.after.shared) (he : x.exchanges i = [e])
    (hb : Backed h x.before.shared.store i t (some stage)) :
    Backed (h ++ [x]) x.after.shared.store i t (some stage') := by
  have hquiet (hq : e.question.isStore = true) : ¬ x.Asks i false := by
    rw [x.asks_iff he, hq]
    nofun
  cases hl with
  | lockRead _ hj | reread hj =>
    exact hj.backed (Unasked.concat hb (hquiet rfl)) (.of_read hx he hm)
  | unlockRead => exact ⟨Unasked.concat hb (hquiet rfl), _, .of_read hx he hm⟩
  | lockVacant | outrun => exact Unasked.concat hb (hquiet rfl)
  | gone =>
    obtain ⟨hu, p, hs⟩ := hb
    exact ⟨p, h.length, hs.read.lt, hs.concat hx, hu.told he⟩
  | lockUnread | unlockVacant | unlockUnread | observedHeld | observedMalformed | observedUnlocked
  | unobserved | created | uncreated | winnerGone | unreread | alive | unchecked | removed | kept =>
    exact .ended

theorem Moment.Acted.backed (hx : x.before.shared.store.WellFormed) {a b : Actor}
    (hact : x.Acted i a b (x.exchanges i))
    (hb : Backed h x.before.shared.store i a.task a.stage) :
    Backed (h ++ [x]) x.after.shared.store i b.task b.stage := by
  generalize hes : x.exchanges i = es at hact
  cases hact with
  | rested | fired => exact hb.concat hx (x.not_asks_of_nil hes)
  | @turned fate _ _ hr hs =>
    cases hr with
    | begun hnone =>
      rw [a.first_exchanges] at hes
      have hq : ¬ x.Asks i false := x.not_asks_of_nil hes
      rw [hnone] at hb
      rcases a.first_stage (s := x.before.shared) with hf | ⟨-, -, hf⟩
      · rcases a.task.start_eq with hstart | hstart <;>
          simp only [Actor.goTo, hf, hstart]
        · exact Unasked.concat hb hq
        · exact .ended
      · simp only [Actor.goTo, hf]
        exact .ended
    | cancelled => exact .ended
    | @asked _ _ e _ _ hstage _ hl hmeet =>
      rw [hstage] at hb
      have hmeet : Meets fate x.before.shared e x.after.shared := by
        rw [hs]
        exact hmeet
      exact hl.backed hx hmeet hes hb

/-- Along every history the store is well formed and each call is backed. -/
theorem Interleaving.backed (tasks : List Task) {s : Local} (hs : s.store.WellFormed)
    (ms : List Move) :
    ((ofTasks tasks s).after ms).shared.store.WellFormed ∧
      ∀ i a, ((ofTasks tasks s).after ms).actors[i]? = some a →
        Backed ((ofTasks tasks s).history ms) ((ofTasks tasks s).after ms).shared.store i a.task
          a.stage := by
  refine history_induct (P := fun h w => w.shared.store.WellFormed ∧
    ∀ i a, w.actors[i]? = some a → Backed h w.shared.store i a.task a.stage) ?_ ?_
  · refine ⟨hs, fun i a ha => ?_⟩
    obtain ⟨t, -, rfl⟩ := of_getElem?_ofTasks ha
    exact fun y hy => absurd hy List.not_mem_nil
  · rintro h x - ⟨hx, ih⟩
    refine ⟨x.change.wellFormed hx, fun i b hb => ?_⟩
    obtain ⟨a, ha, hact⟩ := x.acted hb
    exact hact.backed hx (ih i a ha)

/-- A call asks the store about the key of its own task only. -/
theorem Interleaving.asked_key (tasks : List Task) {s : Local} (hs : s.store.WellFormed)
    {ms : List Move} (hx : x ∈ (ofTasks tasks s).history ms) (ht : tasks[i]? = some t)
    {e : Exchange} (he : e ∈ x.exchanges i) :
    e.question.key? = none ∨ e.question.key? = some t.key := by
  obtain ⟨n, -, hbefore, -⟩ := of_mem_history hx
  obtain ⟨_, a, stage, es, stage', -, ha, hstage, hl, -⟩ := x.asked he
  rw [hbefore] at ha
  obtain rfl := task_after ht ha
  have hbacked := (backed tasks hs (ms.take n)).2 i a ha
  rw [hstage] at hbacked
  cases hl with
  | alive | gone | unchecked => exact .inl rfl
  | @removed r gone | @kept r gone =>
    refine .inr (congrArg some ?_)
    cases gone with
    | none =>
      obtain ⟨-, _, hsighted⟩ := hbacked
      exact hsighted.keyed
    | some =>
      obtain ⟨_, _, -, hsighted, -⟩ := hbacked
      exact hsighted.keyed
  | _ => exact .inr rfl

/-- A call changes the store under the key of its task only. -/
theorem Interleaving.key_of_effect (tasks : List Task) {s : Local}
    (hs : s.store.WellFormed) {ms : List Move}
    (hx : x ∈ (ofTasks tasks s).history ms) {fate : Fate} (hm : x.move = .turn i fate)
    {e : Memory.Effect} (he : x.effect = some e) : (tasks[i]?).map Task.key = some e.key := by
  obtain ⟨j, _, y, hm', hy, heff⟩ := x.asked_of_effect he
  rw [hm] at hm'
  cases hm'
  obtain ⟨n, -, hbefore, -⟩ := of_mem_history hx
  obtain ⟨_, a, _, _, _, -, ha, -⟩ := x.asked hy
  obtain ⟨htask, -⟩ := fits_after tasks s (ms.take n) (hbefore ▸ ha)
  have hkey := Memory.key_of_effect heff
  rcases asked_key tasks hs hx htask hy with hnone | hsome
  · rw [hnone] at hkey
    cases hkey
  · rw [htask, ← hkey, hsome]
    rfl

end

/-! ## Removals are authorised -/

theorem ReadAt.of_take {h : List Moment} {n i p : Nat} {k : Key} {r : Record}
    (hr : ReadAt (h.take n) i p k r) : p < n ∧ ReadAt h i p k r := by
  obtain ⟨x, hx, he⟩ := hr
  rw [List.getElem?_take] at hx
  split at hx
  · next hp => exact ⟨hp, x, hx, he⟩
  · cases hx

/-- A record that has been replaced cannot have the uid that was read, as uids are not given
twice. -/
theorem Sighted.of_removes {h : List Moment} {n i p : Nat} {x : Moment} {k : Key} {r r' : Record}
    (hs : Sighted (h.take n) x.before.shared.store i p k r') (hx : h[n]? = some x)
    (hr : x.effect = some (.removes k r)) (hu : r'.uid = none ∨ r.uid = r'.uid) :
    r' = r ∧ (∃ u, r.uid = some u) ∧ p < n ∧ ReadAt h i p k r ∧
      StaysFrom (h.take (n + 1)) p k r := by
  obtain ⟨hget, -⟩ := x.get?_of_removes hr
  obtain ⟨u, -, hgiven⟩ := hs.given
  have hru : r.uid = r'.uid := by
    rcases hu with hu | hu
    · rw [hgiven] at hu
      cases hu
    · exact hu
  rcases hs.fate with ⟨hstays, hr'⟩ | hgone
  · rw [hget] at hr'
    cases hr'
    obtain ⟨hlt, hread⟩ := hs.read.of_take
    refine ⟨rfl, ⟨_, hgiven⟩, hlt, hread, ?_⟩
    rw [List.take_add_one, hx]
    exact hstays.concat hget
  · exact absurd hru (hgone.absent hget)

namespace Interleaving

/-- Every removal is authorised for exactly the incarnation it removes. It is the delete of a call
that read this incarnation, which has stayed where it is since then. The call is an unlock call, or
it is a lock call for a machine other than the one the record names, and the one thing it asked
about machines, after the read, was answered with that machine being gone. -/
theorem removal_authorised (tasks : List Task) {s : Local} (hs : s.store.Reachable)
    (ms : List Move) {n : Nat} {x : Moment} {k : Key} {r : Record}
    (hx : ((ofTasks tasks s).history ms)[n]? = some x) (hr : x.effect = some (.removes k r)) :
    ∃ i fate t u p, x.move = .turn i fate ∧ tasks[i]? = some t ∧ t.key = k ∧ r.uid = some u ∧
      p < n ∧ ReadAt ((ofTasks tasks s).history ms) i p k r ∧
      StaysFrom (((ofTasks tasks s).history ms).take (n + 1)) p k r ∧
      (t.operation = .unlock ∧ Unasked (((ofTasks tasks s).history ms).take n) i ∨
        ∃ m holder q, t.operation = .lock m ∧ r.holder = .ok holder ∧ holder ≠ m ∧ p < q ∧
          Told (((ofTasks tasks s).history ms).take n) i q t.lookupNs holder) := by
  obtain ⟨-, hbefore, -⟩ := of_getElem?_history hx
  obtain ⟨i, fate, ⟨q, a⟩, hm, he, heff⟩ := x.asked_of_effect hr
  obtain ⟨u, rfl, hu⟩ := Memory.delete_of_effect heff
  obtain ⟨_, c, stage, es, stage', -, hc, hstage, hl, -⟩ := x.asked he
  obtain ⟨ht, hfits⟩ := fits_after tasks s (ms.take n) (hbefore ▸ hc)
  have hbacked := (backed tasks hs.wellFormed (ms.take n)).2 i c (hbefore ▸ hc)
  obtain ⟨r', gone, rfl, rfl, rfl⟩ := hl.of_delete
  have hfit := hfits _ hstage
  rw [← history_take, ← hbefore, hstage] at hbacked
  cases gone with
  | none =>
    obtain ⟨hun, p, hp⟩ := hbacked
    have hkey := hp.keyed
    rw [← hkey] at hp
    obtain ⟨rfl, ⟨u, huid⟩, hlt, hread, hstays⟩ := hp.of_removes hx hr hu
    exact ⟨i, fate, c.task, u, p, hm, ht, hkey.symm, huid, hlt, hread, hstays, .inl ⟨hfit, hun⟩⟩
  | some holder =>
    obtain ⟨p, q, hpq, hp, htold⟩ := hbacked
    obtain ⟨hlocks, hholder, hne⟩ := hfit
    have hkey := hp.keyed
    rw [← hkey] at hp
    obtain ⟨rfl, ⟨u, huid⟩, hlt, hread, hstays⟩ := hp.of_removes hx hr hu
    exact ⟨i, fate, c.task, u, p, hm, ht, hkey.symm, huid, hlt, hread, hstays,
      .inr ⟨_, holder, q, hlocks.operation, hholder, hne, hpq, htold⟩⟩

/-- A call for the machine `a` and one for `b`. -/
def incumbent : Interleaving := ofTasks (["a", "b"].map (.locking (.named "ns" "c" none))) .empty

/-- The call for `a` locks, the one for `b` is told that `a` is gone and deletes its record. -/
def reclaim : List Move :=
  [.turn 0, .turn 0, .turn 0, .turn 1, .turn 1, .turn 1 (.told false), .turn 1]

theorem removal_authorised_reclaim :
    ∃ x r i p, (incumbent.history reclaim)[6]? = some x ∧
      x.effect = some (.removes ⟨"ns", "c-etcd-lock"⟩ r) ∧ x.move = .turn i ∧ p < 6 ∧
      ReadAt (incumbent.history reclaim) i p ⟨"ns", "c-etcd-lock"⟩ r := by
  have hx : ∃ x r, (incumbent.history reclaim)[6]? = some x ∧ x.move = .turn 1 ∧
      x.effect = some (.removes ⟨"ns", "c-etcd-lock"⟩ r) := ⟨_, _, rfl, rfl, rfl⟩
  obtain ⟨x, r, hx, hmove, hr⟩ := hx
  obtain ⟨i, fate, t, u, p, hm, -, -, -, hp, hread, -⟩ :=
    removal_authorised _ .empty reclaim hx hr
  rw [hmove] at hm
  cases hm
  exact ⟨x, r, 1, p, hx, hr, hmove, hp, hread⟩

end Interleaving

end InitLock.Mutex
