import InitLock.Proofs.Mutex.Phase

/-!
# Contending calls

The calls of an interleaving all contend for one key (`Contending`). A moment
takes them from one phase to the next (`Moment.contends`), so a whole history
takes a course through the phases (`Interleaving.course`), and the call that
creates a record has answered true (`Moment.winner`).
-/

namespace InitLock.Mutex

open Store (Memory)
open Store.Memory (Effect Change)

/-- A move of calls whose tokens do not fire and whose questions are all answered, on a store that
nobody else writes. -/
def Move.isFair : Move → Bool
  | .turn _ .arrives | .kill _ _ | .revive _ _ => true
  | .turn _ _ | .fire _ | .insert _ => false

theorem Move.fate_of_isFair {i : Nat} {fate : Fate} (h : (Move.turn i fate).isFair = true) :
    fate = .arrives := by
  cases fate with
  | arrives => rfl
  | lost | refused | told => cases h

/-- A call that contends for the key. -/
structure Contest.Contends (c : Contest) (stale : Option Record) (φ : Phase) (a : Actor) :
    Prop where
  contender : c.Contender a.task
  unfired : a.fired = false
  fits : a.Fits
  poised : Poised stale φ a.task a.stage

/-- The store is in the phase and all calls contend for the key. -/
structure Contending (c : Contest) (stale : Option Record) (φ : Phase) (w : Interleaving) :
    Prop where
  store : φ.Fits c stale w.shared.store
  calls {a : Actor} (ha : a ∈ w.actors) : c.Contends stale φ a

def Moment.Finds (c : Contest) (stale : Option Record) (x : Moment) : Prop :=
  ∀ a ∈ x.before.actors, c.Finds stale a.task x.before.shared.machines

/-- The phases that effects on the store lead through. -/
inductive Course (k : Key) (stale : Option Record) (φ : Phase) : List Effect → Phase → Prop
  | refl : Course k stale φ [] φ
  | step {es : List Effect} {e : Option Effect} {φ' φ'' : Phase} (h : Course k stale φ es φ')
    (hs : φ'.Step k stale e φ'') : Course k stale φ (es ++ e.toList) φ''

section
variable {c : Contest} {stale : Option Record} {φ φ' : Phase} {x : Moment} {i : Nat} {a b : Actor}
  {k : Key} {w : Interleaving} {ms : List Move}

/-! ## A moment -/

theorem Contest.Contends.noticed (h : c.Contends stale φ a) : a.noticed = false := by
  rw [Actor.noticed, h.unfired, Bool.false_and]

theorem Task.Locks.start {t : Task} (h : t.Locks) : t.start.2 = .reading :=
  start_eq_reading h.ne_nameless

theorem Contest.Contends.step {e : Option Effect} (h : c.Contends stale φ a)
    (hs : φ.Step k stale e φ') : c.Contends stale φ' a :=
  ⟨h.contender, h.unfired, h.fits, h.poised.step hs⟩

theorem Moment.Acted.contends (hact : x.Acted i a b []) (hfair : x.move.isFair = true)
    (h : c.Contends stale φ a) : c.Contends stale φ b := by
  generalize hes : ([] : List Exchange) = es at hact
  cases hact with
  | rested => exact h
  | fired hm =>
    rw [hm] at hfair
    cases hfair
  | turned _ hr =>
    refine ⟨h.contender, h.unfired, hr.fits h.fits, ?_⟩
    cases hr with
    | begun hnone =>
      rcases a.first_stage (s := x.before.shared) with hf | ⟨hn, -⟩
      · simp only [Actor.goTo, hf, h.contender.locks.start]
        exact trivial
      · rw [h.noticed] at hn
        cases hn
    | cancelled _ _ hn =>
      rw [h.noticed] at hn
      cases hn
    | asked => cases hes

theorem Moment.store_of_quiet (hfair : x.move.isFair = true) (heff : x.effect = none) :
    x.after.shared.store = x.before.shared.store := by
  have hx := x.stored
  rw [heff] at hx
  generalize x.after.shared.store = t at hx ⊢
  cases hx with
  | kept => rfl
  | inserted r hm =>
    rw [hm] at hfair
    cases hfair

theorem Moment.contends_of_quiet (hfair : x.move.isFair = true) (hnil : ∀ i, x.exchanges i = [])
    (h : Contending c stale φ x.before) : x.effect = none ∧ Contending c stale φ x.after := by
  have heff : x.effect = none := by
    unfold effect
    split
    · rw [hnil]; rfl
    · rfl
  refine ⟨heff, ?_, fun {b} hb => ?_⟩
  · rw [store_of_quiet hfair heff]
    exact h.store
  · obtain ⟨j, hj⟩ := List.mem_iff_getElem?.1 hb
    obtain ⟨a, ha, hact⟩ := x.acted hj
    rw [hnil] at hact
    exact hact.contends hfair (h.calls (List.mem_of_getElem? ha))

/-- The call that asks decides the next phase, and the others stay poised in it. -/
theorem Moment.contends_of_asked (hk : ∀ r ∈ stale, r.key = c.key) (hfair : x.move.isFair = true)
    (hfinds : x.Finds c stale) (h : Contending c stale φ x.before) {e : Exchange}
    (he : e ∈ x.exchanges i) :
    ∃ φ', φ.Step c.key stale x.effect φ' ∧ Contending c stale φ' x.after := by
  obtain ⟨fate, a, stage, es, stage', hm, ha, hstage, hl, hmeet, hes, hafter⟩ := x.asked he
  obtain rfl := Move.fate_of_isFair (hm ▸ hfair)
  have hmem := List.mem_of_getElem? ha
  have hcall := h.calls hmem
  have hp := hcall.poised
  rw [hstage] at hp
  obtain ⟨φ', hstep, hfits, hpoised⟩ := hl.contends h.store hk hcall.contender (hfinds a hmem)
    hmeet (hcall.fits _ hstage) hp
  have heff : x.effect = x.before.shared.effect .arrives e.question := by
    simp only [effect, hm, hes, List.head?_cons, Option.bind_some]
  refine ⟨φ', heff ▸ hstep, hfits, fun {b} hb => ?_⟩
  obtain ⟨j, hj⟩ := List.mem_iff_getElem?.1 hb
  by_cases hji : j = i
  · subst hji
    rw [hafter] at hj
    cases hj
    have hfit : (a.goTo stage').Fits := fun _ hs => by
      cases hs
      exact hl.fits (hcall.fits _ hstage)
    exact ⟨hcall.contender, hcall.unfired, hfit, hpoised⟩
  · obtain ⟨a₁, ha₁, hact⟩ := x.acted hj
    rw [hact.eq_of_turn hm hji]
    exact (h.calls (List.mem_of_getElem? ha₁)).step hstep

/-- A moment takes contending calls from one phase to the next. -/
theorem Moment.contends (hk : ∀ r ∈ stale, r.key = c.key) (hfair : x.move.isFair = true)
    (hfinds : x.Finds c stale) (h : Contending c stale φ x.before) :
    ∃ φ', φ.Step c.key stale x.effect φ' ∧ Contending c stale φ' x.after := by
  by_cases hask : ∃ i e, e ∈ x.exchanges i
  · obtain ⟨i, e, he⟩ := hask
    exact contends_of_asked hk hfair hfinds h he
  · have hnil (i : Nat) : x.exchanges i = [] :=
      List.eq_nil_iff_forall_not_mem.2 fun e he => hask ⟨i, e, he⟩
    obtain ⟨heff, hcont⟩ := contends_of_quiet hfair hnil h
    exact ⟨φ, heff ▸ .stays φ, hcont⟩

/-- A record is created by a call that then answers true. -/
theorem Moment.winner {r : Record} (hfair : x.move.isFair = true)
    (heff : x.effect = some (.creates r)) :
    ∃ a ∈ x.after.actors, a.stage = some (Task.answer true) := by
  obtain ⟨i, fate, ⟨q, o⟩, hm, he, heff⟩ := x.asked_of_effect heff
  obtain ⟨r', rfl, hok⟩ := Memory.create_of_effect heff
  obtain rfl := Move.fate_of_isFair (hm ▸ hfair)
  obtain ⟨_, a, stage, es, stage', hm', -, -, hl, hmeet, -, hafter⟩ := x.asked he
  rw [hm] at hm'
  cases hm'
  have ho : o = some (.ok ()) := hmeet.answer.trans (congrArg some hok)
  subst ho
  exact ⟨_, List.mem_of_getElem? hafter, congrArg some hl.of_create⟩

/-! ## A history -/

theorem Course.of_vacant {es : List Effect} (h : Course k stale .vacant es φ) :
    es = [] ∧ φ = .vacant ∨ ∃ r machine, es = [.creates r] ∧ φ = .held r machine := by
  induction h with
  | refl => exact .inl ⟨rfl, rfl⟩
  | step _ hs ih =>
    rcases ih with ⟨rfl, rfl⟩ | ⟨r, machine, rfl, rfl⟩
    · cases hs with
      | stays => exact .inl ⟨rfl, rfl⟩
      | fills => exact .inr ⟨_, _, rfl, rfl⟩
    · cases hs with
      | stays => exact .inr ⟨r, machine, rfl, rfl⟩

theorem Course.of_stale {es : List Effect} (h : Course k stale .stale es φ) :
    es = [] ∧ φ = .stale ∨ ∃ r ∈ stale, es = [.removes k r] ∧ φ = .vacant ∨
      ∃ r' machine, es = [.removes k r, .creates r'] ∧ φ = .held r' machine := by
  induction h with
  | refl => exact .inl ⟨rfl, rfl⟩
  | step _ hs ih =>
    rcases ih with ⟨rfl, rfl⟩ | ⟨r, hr, ⟨rfl, rfl⟩ | ⟨r', machine, rfl, rfl⟩⟩
    · cases hs with
      | stays => exact .inl ⟨rfl, rfl⟩
      | clears hr => exact .inr ⟨_, hr, .inl ⟨rfl, rfl⟩⟩
    · cases hs with
      | stays => exact .inr ⟨r, hr, .inl ⟨rfl, rfl⟩⟩
      | fills => exact .inr ⟨r, hr, .inr ⟨_, _, rfl, rfl⟩⟩
    · cases hs with
      | stays => exact .inr ⟨r, hr, .inr ⟨r', machine, rfl, rfl⟩⟩

/-- If the phase has become one of a contender's record, its call has answered true. -/
def HasWinner (φ : Phase) (w : Interleaving) : Prop :=
  ∀ r machine, φ = .held r machine →
    ∃ a ∈ w.actors, a.task.machine = machine ∧ a.stage = some (Task.answer true)

theorem Contending.machine_of_true (h : Contending c stale φ w) (ha : a ∈ w.actors)
    (hs : a.stage = some (Task.answer true)) : ∃ r, φ = .held r a.task.machine := by
  have hp := (h.calls ha).poised
  rwa [hs] at hp

theorem HasWinner.step (hfair : x.move.isFair = true) (hs : φ.Step k stale x.effect φ')
    (h : Contending c stale φ' x.after) (hw : HasWinner φ x.before) : HasWinner φ' x.after := by
  rintro r machine rfl
  generalize heff : x.effect = e at hs
  cases hs with
  | stays =>
    obtain ⟨a, ha, hm, htrue⟩ := hw r machine rfl
    obtain ⟨b, hb, htask, hended⟩ := x.ended_stays ha htrue
    exact ⟨b, hb, htask ▸ hm, hended⟩
  | fills =>
    obtain ⟨b, hb, htrue⟩ := x.winner hfair heff
    obtain ⟨r', hr'⟩ := h.machine_of_true hb htrue
    cases hr'
    exact ⟨b, hb, rfl, htrue⟩

/-- Contending calls take a course through the phases, and one of them wins if the course ends at a
record that none held before. -/
theorem Interleaving.course (hk : ∀ r ∈ stale, r.key = c.key)
    (hfair : ∀ m ∈ ms, m.isFair = true) (hfinds : ∀ x ∈ w.history ms, x.Finds c stale)
    (h : Contending c stale φ w) (hw : HasWinner φ w) :
    ∃ φ', Course c.key stale φ (effects (w.history ms)) φ' ∧
      Contending c stale φ' (w.after ms) ∧ HasWinner φ' (w.after ms) := by
  refine history_induct (P := fun h w => ∃ φ', Course c.key stale φ (effects h) φ' ∧
    Contending c stale φ' w ∧ HasWinner φ' w) ⟨φ, .refl, h, hw⟩ ?_
  rintro past x hx ⟨φ', hcourse, hcont, hwin⟩
  have hfair' := hfair _ (move_mem_of_mem_history hx)
  obtain ⟨φ'', hstep, hcont'⟩ := x.contends hk hfair' (hfinds x hx) hcont
  refine ⟨φ'', ?_, hcont', hwin.step hfair' hstep hcont'⟩
  rw [effects_concat]
  exact hcourse.step hstep

/-- A record that names a living machine stays while calls contend for its key. -/
theorem Interleaving.holds {r : Record} {machine : String} (hk : ∀ r ∈ stale, r.key = c.key)
    (hfair : ∀ m ∈ ms, m.isFair = true) (hfinds : ∀ x ∈ w.history ms, x.Finds c stale)
    (h : Contending c stale (.held r machine) w) :
    Contending c stale (.held r machine) (w.after ms) ∧ ∀ x ∈ w.history ms, x.effect = none ∧
      x.before.shared.store.records.get? c.key = some r ∧
        x.after.shared.store.records.get? c.key = some r := by
  refine history_induct (P := fun h w => Contending c stale (.held r machine) w ∧
    ∀ x ∈ h, x.effect = none ∧ x.before.shared.store.records.get? c.key = some r ∧
      x.after.shared.store.records.get? c.key = some r) ⟨h, nofun⟩ ?_
  rintro past x hx ⟨hcont, hpast⟩
  obtain ⟨φ', hstep, hcont'⟩ := x.contends hk (hfair _ (move_mem_of_mem_history hx)) (hfinds x hx)
    hcont
  generalize heff : x.effect = e at hstep
  cases hstep with
  | stays =>
    refine ⟨hcont', fun y hy => ?_⟩
    rcases List.mem_append.1 hy with hy | hy
    · exact hpast y hy
    · cases List.mem_singleton.1 hy
      exact ⟨heff, hcont.store.1, hcont'.store.1⟩

end

end InitLock.Mutex
