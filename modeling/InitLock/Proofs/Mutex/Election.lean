import InitLock.Proofs.Mutex.Contention

/-!
# Elections

Lock calls contend for a key in rounds, each on the store that the last one
left. A round elects a machine if there is no record (`Contests.elects`), and
confirms the machine that the record names (`Contests.confirms`). A round that
starts at the record of a machine that is gone removes it once and elects at
most one successor (`Contests.reclaims`); the next round elects one at the latest.
-/

namespace InitLock.Mutex

open Store (Memory)
open Store.Memory (Effect)

/-- Some calls and a schedule for them. -/
structure Round where
  tasks : List Task
  schedule : List Move

namespace Round

def calls (r : Round) (s : Local) : Interleaving := .ofTasks r.tasks s

def history (r : Round) (s : Local) : List Moment := (r.calls s).history r.schedule

def result (r : Round) (s : Local) : Interleaving := (r.calls s).after r.schedule

def final (r : Round) (s : Local) : Local := (r.result s).shared

/-- What several rounds leave. -/
def finals : List Round → Local → Local
  | [], s => s
  | r :: rs, s => finals rs (r.final s)

/-- Something holds of every round and what it starts from. -/
def Along (P : Round → Local → Prop) : List Round → Local → Prop
  | [], _ => True
  | r :: rs, s => P r s ∧ Along P rs (r.final s)

/-- The calls of a round contend for the key and all end. -/
structure Contests (c : Contest) (stale : Option Record) (r : Round) (s : Local) : Prop where
  nonempty : r.tasks ≠ []
  contender {t : Task} (ht : t ∈ r.tasks) : c.Contender t
  fair {m : Move} (hm : m ∈ r.schedule) : m.isFair = true
  finds {x : Moment} (hx : x ∈ r.history s) {t : Task} (ht : t ∈ r.tasks) :
    c.Finds stale t x.before.shared.machines
  complete {a : Actor} (ha : a ∈ (r.result s).actors) : a.outcome?.isSome

/-- The calls for the machine answer true, all others false. -/
def WonBy (machine : String) (r : Round) (s : Local) : Prop :=
  ∀ a ∈ (r.result s).actors, a.outcome? = some (.answered (decide (a.task.machine = machine)))

/-- The record under the key names the machine all the time. -/
def Names (k : Key) (machine : String) (r : Round) (s : Local) : Prop :=
  ∀ x ∈ r.history s, x.before.shared.store.holder? k = some machine ∧
    x.after.shared.store.holder? k = some machine

theorem Along.imp {P Q : Round → Local → Prop} (h : ∀ r s, P r s → Q r s) {rs : List Round}
    {s : Local} (hp : Along P rs s) : Along Q rs s := by
  induction rs generalizing s with
  | nil => exact trivial
  | cons r rs ih => exact ⟨h _ _ hp.1, ih hp.2⟩

/-! ## One round -/

section
variable {c : Contest} {stale : Option Record} {φ : Phase} {r : Round} {s : Local}

theorem task_mem {w : Interleaving} {ms : List Move} (hw : w = (r.calls s).after ms) {a : Actor}
    (ha : a ∈ w.actors) : a.task ∈ r.tasks := by
  subst hw
  obtain ⟨i, hi⟩ := List.mem_iff_getElem?.1 ha
  exact List.mem_of_getElem? (Interleaving.fits_after r.tasks s ms hi).1

theorem not_mem_none {P : Record → Prop} : ∀ r ∈ (none : Option Record), P r := by
  intro _ hr
  cases hr

namespace Contests

theorem contending (h : Contests c stale r s) (hφ : φ.Fits c stale s.store) :
    Contending c stale φ (r.calls s) where
  store := hφ
  calls {a} ha := by
    obtain ⟨t, ht, rfl⟩ := List.mem_map.1 ha
    exact ⟨h.contender ht, rfl, nofun, trivial⟩

theorem finds_all (h : Contests c stale r s) {x : Moment} (hx : x ∈ r.history s) :
    x.Finds c stale := by
  intro a ha
  obtain ⟨n, -, hbefore, -⟩ := Interleaving.of_mem_history hx
  exact h.finds hx (task_mem hbefore ha)

/-- A call that has ended has answered, true just if the record in the phase names its machine. -/
theorem answered (h : Contests c stale r s) (hcont : Contending c stale φ (r.result s)) {a : Actor}
    (ha : a ∈ (r.result s).actors) :
    (a.outcome? = some (.answered true) ∧ ∃ r, φ = .held r a.task.machine) ∨
      (a.outcome? = some (.answered false) ∧ φ ≠ .stale ∧
        (stale = none → ∃ r machine, φ = .held r machine ∧ machine ≠ a.task.machine)) := by
  obtain ⟨o, ho⟩ := Option.isSome_iff_exists.1 (h.complete ha)
  have hp := (hcont.calls ha).poised
  rw [Actor.stage_of_outcome? ho] at hp
  rw [ho]
  match o with
  | .answered true => exact .inl ⟨rfl, hp⟩
  | .answered false => exact .inr ⟨rfl, hp⟩

theorem exists_call (h : Contests c stale r s) : ∃ a, a ∈ (r.result s).actors := by
  refine List.exists_mem_of_length_pos ?_
  rw [result, Interleaving.length_actors_after, calls, Interleaving.ofTasks, List.length_map]
  exact List.length_pos_iff.2 h.nonempty

theorem wonBy (h : Contests c none r s) {record : Record} {machine : String}
    (hcont : Contending c none (.held record machine) (r.result s)) : r.WonBy machine s := by
  intro a ha
  rcases h.answered hcont ha with ⟨ho, _, he⟩ | ⟨ho, _, hne⟩
  · cases he
    rw [ho, decide_eq_true rfl]
  · obtain ⟨_, _, he, hne⟩ := hne rfl
    cases he
    rw [ho, decide_eq_false hne.symm]

/-- A record that names a living machine confirms it. -/
theorem confirms (h : Contests c none r s) {record : Record} {machine : String}
    (hs : (Phase.held record machine).Fits c none s.store) :
    r.WonBy machine s ∧ effects (r.history s) = [] ∧ r.Names c.key machine s ∧
      (Phase.held record machine).Fits c none (r.final s).store := by
  obtain ⟨hcont, hkept⟩ := Interleaving.holds not_mem_none (fun _ => h.fair) (fun _ => h.finds_all)
    (h.contending hs)
  refine ⟨h.wonBy hcont, ?_, fun x hx => ?_, hcont.store⟩
  · exact List.filterMap_eq_nil_iff.2 fun x hx => (hkept x hx).1
  · obtain ⟨-, hb, ha⟩ := hkept x hx
    have hholder : record.holder.toOption = some machine := by rw [hs.2.1]; rfl
    simp only [Memory.holder?, hb, ha, Option.bind_some, hholder, and_self]

/-- A round without a record elects a machine. -/
theorem elects (h : Contests c none r s) (hs : Phase.vacant.Fits c none s.store) :
    ∃ record machine, (∃ t ∈ r.tasks, t.machine = machine) ∧ r.WonBy machine s ∧
      effects (r.history s) = [.creates record] ∧
      (Phase.held record machine).Fits c none (r.final s).store := by
  obtain ⟨φ, hcourse, hcont, hwin⟩ := Interleaving.course not_mem_none (fun _ => h.fair)
    (fun _ => h.finds_all) (h.contending hs) nofun
  rcases hcourse.of_vacant with ⟨-, rfl⟩ | ⟨record, machine, he, rfl⟩
  · obtain ⟨a, ha⟩ := h.exists_call
    rcases h.answered hcont ha with ⟨_, _, he⟩ | ⟨_, _, hheld⟩
    · cases he
    · obtain ⟨_, _, he, _⟩ := hheld rfl
      cases he
  · obtain ⟨a, ha, hm, -⟩ := hwin record machine rfl
    exact ⟨record, machine, ⟨a.task, task_mem rfl ha, hm⟩, h.wonBy hcont, he, hcont.store⟩

/-- A round that starts at the record of a machine that is gone removes it and creates at most one
record, which all calls agree with that answer true. -/
theorem reclaims {old : Record} (h : Contests c (some old) r s) (hk : old.key = c.key)
    (hs : Phase.stale.Fits c (some old) s.store) :
    (effects (r.history s) = [.removes c.key old] ∧ Phase.vacant.Fits c none (r.final s).store ∧
      ∀ a ∈ (r.result s).actors, a.outcome? ≠ some (.answered true)) ∨
    ∃ record machine, effects (r.history s) = [.removes c.key old, .creates record] ∧
      (Phase.held record machine).Fits c none (r.final s).store ∧
      (∀ a ∈ (r.result s).actors, a.outcome? = some (.answered true) → a.task.machine = machine) ∧
      ∃ a ∈ (r.result s).actors, a.outcome? = some (.answered true) := by
  have hkeys : ∀ r ∈ some old, r.key = c.key := by
    intro _ hr
    cases hr
    exact hk
  obtain ⟨φ, hcourse, hcont, hwin⟩ := Interleaving.course hkeys (fun _ => h.fair)
    (fun _ => h.finds_all) (h.contending hs) nofun
  rcases hcourse.of_stale with ⟨-, rfl⟩ | ⟨_, hr, ⟨he, rfl⟩ | ⟨record, machine, he, rfl⟩⟩
  · obtain ⟨a, ha⟩ := h.exists_call
    rcases h.answered hcont ha with ⟨_, _, he⟩ | ⟨_, hne, _⟩
    · cases he
    · exact absurd rfl hne
  · cases hr
    refine .inl ⟨he, ⟨hcont.store.1, not_mem_none⟩, fun a ha htrue => ?_⟩
    obtain ⟨_, hφ⟩ := hcont.machine_of_true ha (Actor.stage_of_outcome? htrue)
    cases hφ
  · cases hr
    obtain ⟨hget, hholder, hliving, -⟩ := hcont.store
    refine .inr ⟨record, machine, he, ⟨hget, hholder, hliving, not_mem_none⟩, ?_, ?_⟩
    · intro a ha htrue
      obtain ⟨_, hφ⟩ := hcont.machine_of_true ha (Actor.stage_of_outcome? htrue)
      cases hφ
      rfl
    · obtain ⟨a, ha, -, htrue⟩ := hwin record machine rfl
      refine ⟨a, ha, ?_⟩
      rw [Actor.outcome?, htrue]
      rfl

end Contests

/-! ## Round after round -/

variable {rs : List Round}

theorem along_confirms {record : Record} {machine : String} (h : Along (Contests c none) rs s)
    (hs : (Phase.held record machine).Fits c none s.store) :
    Along (fun r s => r.WonBy machine s ∧ effects (r.history s) = [] ∧ r.Names c.key machine s)
      rs s := by
  induction rs generalizing s with
  | nil => exact trivial
  | cons r rs ih =>
    obtain ⟨hwon, he, hnames, hfinal⟩ := h.1.confirms hs
    exact ⟨⟨hwon, he, hnames⟩, ih h.2 hfinal⟩

theorem along_wonBy {record : Record} {machine : String} (h : Along (Contests c none) rs s)
    (hs : (Phase.held record machine).Fits c none s.store) :
    Along (fun r s => r.WonBy machine s ∧ ∀ k r', .removes k r' ∉ effects (r.history s)) rs s := by
  refine (along_confirms h hs).imp fun _ _ ⟨hwon, he, _⟩ => ⟨hwon, fun k r' hmem => ?_⟩
  rw [he] at hmem
  cases hmem

theorem counts_along (h : Along (fun r s => effects (r.history s) = []) rs s) :
    (finals rs s).store.creates = s.store.creates ∧
      (finals rs s).store.deletes = s.store.deletes := by
  induction rs generalizing s with
  | nil => exact ⟨rfl, rfl⟩
  | cons r rs ih =>
    obtain ⟨hc, hd⟩ := (r.calls s).counts r.schedule
    rw [show effects ((r.calls s).history r.schedule) = [] from h.1] at hc hd
    obtain ⟨hc', hd'⟩ := ih h.2
    exact ⟨hc'.trans hc, hd'.trans hd⟩

theorem holder?_of_held {record : Record} {machine : String}
    (hs : (Phase.held record machine).Fits c stale s.store) :
    s.store.holder? c.key = some machine := by
  rw [Memory.holder?, hs.1, Option.bind_some, hs.2.1]
  rfl

end

/-- From a key without a record exactly one machine wins and keeps winning: in every round the calls
that answer true are those for one machine of the first round, one record is created and none
deleted, and after the first round the record always names that machine. -/
theorem one_winner (c : Contest) {r : Round} {rs : List Round} {s : Local}
    (hs : s.store.records.get? c.key = none) (h : Along (Contests c none) (r :: rs) s) :
    ∃ machine, (∃ t ∈ r.tasks, t.machine = machine) ∧ Along (WonBy machine) (r :: rs) s ∧
      (finals (r :: rs) s).store.creates = s.store.creates + 1 ∧
      (finals (r :: rs) s).store.deletes = s.store.deletes ∧
      (r.final s).store.holder? c.key = some machine ∧
      Along (Names c.key machine) rs (r.final s) := by
  obtain ⟨record, machine, hcaller, hwon, he, hheld⟩ := h.1.elects ⟨hs, not_mem_none⟩
  have hrest := along_confirms h.2 hheld
  obtain ⟨hc, hd⟩ := (r.calls s).counts r.schedule
  rw [show effects ((r.calls s).history r.schedule) = [.creates record] from he] at hc hd
  obtain ⟨hc', hd'⟩ := counts_along (hrest.imp fun _ _ hr => hr.2.1)
  exact ⟨machine, hcaller, ⟨hwon, hrest.imp fun _ _ hr => hr.1⟩, hc'.trans hc, hd'.trans hd,
    holder?_of_held hheld, hrest.imp fun _ _ hr => hr.2.2⟩

def rivalry : Contest := ⟨⟨"ns", "c-etcd-lock"⟩, by decide, by decide, (· ∈ ["a", "b"])⟩

/-- A call for `a` and one for `b`, turn by turn. -/
def duel : Round where
  tasks := ["a", "b"].map (.locking (.named "ns" "c" none))
  schedule := [0, 1, 0, 1, 0, 1, 1, 1, 0, 0].map (.turn ·)

/-- Both machines exist and nothing is stored. -/
def unlocked : Local := ⟨.empty, ⟨[⟨"eksa-system", "a"⟩, ⟨"eksa-system", "b"⟩]⟩⟩

theorem contests_duel {stale : Option Record} {s : Local}
    (hstale : ∀ r ∈ stale, r.holder = .ok "d")
    (hm : ∀ x ∈ duel.history s, x.before.shared.machines = unlocked.machines)
    (hc : ∀ a ∈ (duel.result s).actors, a.outcome?.isSome) : Contests rivalry stale duel s where
  nonempty := by decide
  contender {t} ht := by
    obtain ⟨m, hm, rfl⟩ := List.mem_map.1 ht
    have hne : ∀ m ∈ ["a", "b"], m ≠ "" := by decide
    exact ⟨⟨rfl, hne m hm⟩, hm, rfl⟩
  fair {m} hm := by
    revert m
    decide
  finds {x} hx {t} ht := by
    obtain ⟨m, -, rfl⟩ := List.mem_map.1 ht
    rw [hm x hx]
    have hliving : ∀ m ∈ ["a", "b"], unlocked.machines.alive "eksa-system" m = true := by decide
    refine ⟨fun {m} => hliving m, fun {r m} hr h => ?_⟩
    rw [hstale r hr] at h
    cases h
    rfl
  complete ha := hc _ ha

theorem one_winner_duel : ∃ machine, (∃ t ∈ duel.tasks, t.machine = machine) ∧
    Along (WonBy machine) [duel, duel] unlocked := by
  have h : Along (Contests rivalry none) [duel, duel] unlocked :=
    ⟨contests_duel not_mem_none (by decide) (by decide),
      contests_duel not_mem_none (by decide) (by decide), trivial⟩
  obtain ⟨machine, hcaller, hwon, -⟩ := one_winner rivalry rfl h
  exact ⟨machine, hcaller, hwon⟩

/-- Reclaiming under contention yields one successor. A round on the record of a machine that is
gone deletes that record once and nothing else, it creates one record at most, and all its calls
that answer true are for the machine that the record now there names. The following rounds delete
nothing and the calls that answer true are those for one machine, the successor if there is one and
otherwise the one that wins the next round. -/
theorem one_successor (c : Contest) {r : Round} {rs : List Round} {s : Local} {old : Record}
    {gone : String} (hs : s.store.Reachable) (hold : s.store.records.get? c.key = some old)
    (hgone : old.holder = .ok gone) (h : Contests c (some old) r s)
    (hrs : Along (Contests c none) rs (r.final s)) :
    (∃ created : Option Record,
      effects (r.history s) = .removes c.key old :: created.toList.map .creates) ∧
    (∀ a ∈ (r.result s).actors, a.outcome? = some (.answered true) →
      (r.final s).store.holder? c.key = some a.task.machine) ∧
    ((r.final s).store.records.get? c.key ≠ none →
      ∃ a ∈ (r.result s).actors, a.outcome? = some (.answered true)) ∧
    ∃ machine, (∀ m, (r.final s).store.holder? c.key = some m → machine = m) ∧
      Along (fun r s => r.WonBy machine s ∧ ∀ k r', .removes k r' ∉ effects (r.history s)) rs
        (r.final s) ∧
      ∀ r' rs', rs = r' :: rs' → (r.final s).store.records.get? c.key = none →
        ∃ created, effects (r'.history (r.final s)) = [.creates created] ∧
          created.holder = .ok machine := by
  have hw := hs.wellFormed
  have hstale : Phase.stale.Fits c (some old) s.store :=
    ⟨old, rfl, hold, hw.given hold, by rw [hgone]; rfl⟩
  rcases h.reclaims (hw.keyed hold) hstale with
    ⟨he, hvacant, hnone⟩ | ⟨record, machine, he, hheld, htrue, hwin⟩
  · refine ⟨⟨none, he⟩, fun a ha ht => absurd ht (hnone a ha), fun hne => absurd hvacant.1 hne, ?_⟩
    have hholder : (r.final s).store.holder? c.key = none := by
      rw [Memory.holder?, hvacant.1]
      rfl
    cases rs with
    | nil =>
      refine ⟨"", fun m hm => ?_, trivial, nofun⟩
      rw [hholder] at hm
      cases hm
    | cons r' rs =>
      obtain ⟨record, machine, -, hwon, he', hheld⟩ := hrs.1.elects hvacant
      refine ⟨machine, fun m hm => ?_,
        ⟨⟨hwon, fun k r'' hmem => ?_⟩, along_wonBy hrs.2 hheld⟩, ?_⟩
      · rw [hholder] at hm
        cases hm
      · rw [he'] at hmem
        cases List.mem_singleton.1 hmem
      · rintro _ _ heq -
        cases heq
        exact ⟨record, he', hheld.2.1⟩
  · have hholder := holder?_of_held hheld
    refine ⟨⟨some record, he⟩, fun a ha ht => htrue a ha ht ▸ hholder, fun _ => hwin, machine,
      fun m hm => ?_, along_wonBy hrs hheld, fun _ _ _ hnone => ?_⟩
    · rw [hholder] at hm
      exact Option.some.inj hm
    · rw [hheld.1] at hnone
      cases hnone

/-- The same machines, and the record of a machine `d` that does not exist. -/
def abandoned : Local where
  store := (Memory.empty.insert (.naming "d" (.named "ns" "c" none) "c-etcd-lock")).2
  machines := unlocked.machines

theorem one_successor_duel : ∃ old, abandoned.store.records.get? rivalry.key = some old ∧
    (∃ created : Option Record, effects (duel.history abandoned) =
      .removes rivalry.key old :: created.toList.map .creates) ∧
    ∃ machine, Along (fun r s => r.WonBy machine s ∧ ∀ k r', .removes k r' ∉ effects (r.history s))
      [duel, duel] (duel.final abandoned) := by
  obtain ⟨old, hold, hgone⟩ : ∃ old, abandoned.store.records.get? rivalry.key = some old ∧
      old.holder = .ok "d" := ⟨_, rfl, rfl⟩
  have h : Contests rivalry (some old) duel abandoned := by
    refine contests_duel (fun r hr => ?_) (by decide) (by decide)
    cases hr
    exact hgone
  have hrs : Along (Contests rivalry none) [duel, duel] (duel.final abandoned) :=
    ⟨contests_duel not_mem_none (by decide) (by decide),
      contests_duel not_mem_none (by decide) (by decide), trivial⟩
  obtain ⟨heffects, -, -, machine, -, hwon, -⟩ :=
    one_successor rivalry (.insert .empty _) hold hgone h hrs
  exact ⟨old, hold, heffects, machine, hwon⟩

end Round

end InitLock.Mutex
