import InitLock.Proofs.Mutex.History
import InitLock.Proofs.Payload

/-!
# Phases of a contest

Lock calls for living machines contend for a key. The record under the key goes
through phases: that of a machine that is gone, none, that of a contender.
`Phase.Step` is how a phase gives way to the next, and each turn of a call is
such a step or leaves the phase as it is (`Task.Leads.contends`). `Poised` says
at which stage a call can be in a phase; a step of another call keeps it.
-/

namespace InitLock.Mutex

open Store (Memory)
open Store.Memory (Effect Change)

/-- What is under the key. -/
inductive Phase where
  /-- The record of a machine that is gone. -/
  | stale
  /-- No record. -/
  | vacant
  /-- A record that names a living machine. -/
  | held (record : Record) (machine : String)

/-- A key that a record can have, and the machines that live while calls contend for it. -/
structure Contest where
  key : Key
  ns_ne : key.ns ≠ ""
  name_ne : key.name ≠ ""
  living : String → Prop

/-- A lock call that takes part. -/
structure Contest.Contender (c : Contest) (t : Task) : Prop where
  locks : t.Locks
  living : c.living t.machine
  key : t.key = c.key

/-- What a task finds when it looks machines up: all that live, but not the one that the stale
record names. -/
structure Contest.Finds (c : Contest) (stale : Option Record) (t : Task) (l : Liveness) : Prop where
  alive {machine : String} (h : c.living machine) : l.alive t.lookupNs machine = true
  gone {r : Record} {machine : String} (h : r ∈ stale) (hr : r.holder = .ok machine) :
    l.alive t.lookupNs machine = false

section
variable {c : Contest} {t : Task}

theorem Contest.Contender.ns_ne (h : c.Contender t) : t.newRecord.ns ≠ "" := by
  have hkey : t.newRecord.key = c.key := h.key
  have := c.ns_ne
  rwa [← hkey] at this

theorem Contest.Contender.name_ne (h : c.Contender t) : t.newRecord.name ≠ "" := by
  have hkey : t.newRecord.key = c.key := h.key
  have := c.name_ne
  rwa [← hkey] at this

end

namespace Phase

theorem vacant_ne_stale : vacant ≠ stale := nofun

theorem held_ne_stale {r : Record} {machine : String} : held r machine ≠ stale := nofun

/-- The store is in the phase. -/
def Fits (c : Contest) (stale : Option Record) (s : Memory) : Phase → Prop
  | .stale => ∃ r ∈ stale, s.records.get? c.key = some r ∧ s.Given r.uid ∧ r.holder.isOk
  | .vacant => s.records.get? c.key = none ∧ ∀ r ∈ stale, s.Gone c.key r.uid
  | .held r machine => s.records.get? c.key = some r ∧ r.holder = .ok machine ∧
      c.living machine ∧ ∀ r ∈ stale, s.Gone c.key r.uid

/-- A phase gives way to the next by an effect on the store, or stays. -/
inductive Step (k : Key) (stale : Option Record) : Phase → Option Effect → Phase → Prop
  | stays (φ : Phase) : Step k stale φ none φ
  | clears {r : Record} (h : r ∈ stale) : Step k stale .stale (some (.removes k r)) .vacant
  | fills {r : Record} {machine : String} (h : r.holder = .ok machine) :
    Step k stale .vacant (some (.creates r)) (.held r machine)

end Phase

/-- A call of the task can be at the stage in the phase. -/
def Poised (stale : Option Record) (φ : Phase) (t : Task) : Option Stage → Prop
  | none | some .reading => True
  | some .creating => φ ≠ .stale
  | some .rereading => ∃ r machine, φ = .held r machine
  | some (.checking r holder) => r ∈ stale ∨ φ = .held r holder
  | some (.deleting r _) => r ∈ stale
  | some .stalled => False
  | some (.ended (.answered true)) => ∃ r, φ = .held r t.machine
  | some (.ended (.answered false)) =>
    φ ≠ .stale ∧ (stale = none → ∃ r machine, φ = .held r machine ∧ machine ≠ t.machine)
  | some (.ended _) => False

section
variable {c : Contest} {stale : Option Record} {φ φ' : Phase} {t : Task} {s s' : Local}

/-- A step of another call keeps a call poised. -/
theorem Poised.step {k : Key} {e : Option Effect} {stage : Option Stage}
    (h : Poised stale φ t stage) (hs : φ.Step k stale e φ') : Poised stale φ' t stage := by
  cases hs with
  | stays => exact h
  | clears hr =>
    match stage with
    | none | some .reading => exact trivial
    | some .creating => exact Phase.vacant_ne_stale
    | some .rereading => obtain ⟨_, _, h⟩ := h; cases h
    | some (.checking _ _) => exact .inl (h.resolve_right nofun)
    | some (.deleting _ _) => exact h
    | some (.ended (.answered true)) => obtain ⟨_, h⟩ := h; cases h
    | some (.ended (.answered false)) => exact absurd rfl h.1
  | fills =>
    match stage with
    | none | some .reading => exact trivial
    | some .creating => exact Phase.held_ne_stale
    | some .rereading => exact ⟨_, _, rfl⟩
    | some (.checking _ _) => exact .inl (h.resolve_right nofun)
    | some (.deleting _ _) => exact h
    | some (.ended (.answered true)) => obtain ⟨_, h⟩ := h; cases h
    | some (.ended (.answered false)) =>
      refine ⟨Phase.held_ne_stale, fun hnone => ?_⟩
      obtain ⟨_, _, h, _⟩ := h.2 hnone
      cases h

/-! ## What a phase says about answers -/

theorem Phase.Fits.of_some (h : φ.Fits c stale s.store) {r : Record}
    (hr : s.store.records.get? c.key = some r) :
    (φ = .stale ∧ r ∈ stale ∧ r.holder.isOk) ∨
      ∃ machine, φ = .held r machine ∧ r.holder = .ok machine ∧ c.living machine := by
  cases φ with
  | stale =>
    obtain ⟨r', hmem, hr', _, hok⟩ := h
    rw [hr] at hr'
    cases hr'
    exact .inl ⟨rfl, hmem, hok⟩
  | vacant =>
    rw [h.1] at hr
    cases hr
  | held r' machine =>
    obtain ⟨hr', hholder, hliving, _⟩ := h
    rw [hr] at hr'
    cases hr'
    exact .inr ⟨machine, rfl, hholder, hliving⟩

theorem Phase.Fits.of_none (h : φ.Fits c stale s.store)
    (hnone : s.store.records.get? c.key = none) : φ = .vacant := by
  cases φ with
  | vacant => rfl
  | stale =>
    obtain ⟨_, _, hr, _⟩ := h
    rw [hnone] at hr
    cases hr
  | held =>
    obtain ⟨hr, _⟩ := h
    rw [hnone] at hr
    cases hr

theorem Task.Judged.poised (h : φ.Fits c stale s.store) (ht : c.Contender t)
    (hfinds : c.Finds stale t s.machines) {r : Record}
    (hr : s.store.records.get? c.key = some r) {es : List Event} {stage : Stage}
    (hj : Judged t.machine r es stage) : Poised stale φ t (some stage) := by
  cases hj with
  | malformed he =>
    rcases h.of_some hr with ⟨_, _, hok⟩ | ⟨_, _, hholder, _⟩
    · rw [he] at hok
      cases hok
    · rw [he] at hholder
      cases hholder
  | held hm =>
    rcases h.of_some hr with ⟨_, hmem, _⟩ | ⟨_, rfl, hholder, _⟩
    · have hgone := hfinds.gone hmem hm
      rw [hfinds.alive ht.living] at hgone
      cases hgone
    · rw [hm] at hholder
      cases hholder
      exact ⟨r, rfl⟩
  | other hm hne =>
    rcases h.of_some hr with ⟨_, hmem, _⟩ | ⟨_, rfl, hholder, _⟩
    · exact .inl hmem
    · rw [hm] at hholder
      cases hholder
      exact .inr rfl

/-! ## Turns in a phase -/

theorem Phase.Fits.create (h : φ.Fits c stale s.store) (ht : c.Contender t)
    (hm : Meets .arrives s ⟨.create t.newRecord, some (.ok ())⟩ s') :
    ∃ r, φ.Step c.key stale (s.effect .arrives (.create t.newRecord)) (.held r t.machine) ∧
      (Phase.held r t.machine).Fits c stale s'.store := by
  have hkey : t.newRecord.key = c.key := ht.key
  obtain ⟨hnone, hs'⟩ := hm.create_ok
  have hphase := h.of_none (hkey ▸ hnone)
  subst hphase
  have hholder : ({ t.newRecord with uid := some s.store.nextUid } : Record).holder =
      .ok t.machine := by
    rw [Record.holder_withUid]
    exact Record.holder_naming ht.locks.named _ _
  have heffect : s.effect .arrives (.create t.newRecord) =
      some (.creates { t.newRecord with uid := some s.store.nextUid }) :=
    Memory.effect_of_create_ok (congrArg Prod.fst hm.arrived)
  refine ⟨_, heffect ▸ .fills hholder, ?_, hholder, ht.living, fun r hr => ?_⟩
  · rw [hs', ← hkey]
    exact (Memory.get?_store ..).trans (if_pos rfl)
  · rw [hs']
    exact (Change.create t.newRecord hnone).gone (h.2 r hr)

/-- Deleting the stale record leaves the phase in which there is none, or one that came later. -/
theorem Phase.Fits.delete (h : φ.Fits c stale s.store) {r : Record} (hr : r ∈ stale)
    (hk : r.key = c.key) {a : Except StoreError Unit}
    (hm : Meets .arrives s ⟨.delete r.key r.uid, some a⟩ s') :
    ∃ φ', φ.Step c.key stale (s.effect .arrives (.delete r.key r.uid)) φ' ∧
      φ'.Fits c stale s'.store ∧ φ' ≠ .stale := by
  have hd := s.store.deleted r.key r.uid
  have ha := hm.deleted
  rw [hk] at hd ha ⊢
  rw [ha] at hd
  show ∃ φ', φ.Step c.key stale (s.store.effect (.delete c.key r.uid)) φ' ∧ _
  generalize s'.store = store at hd ha ⊢
  cases hd with
  | notFound hnone =>
    rw [Memory.effect_of_delete_error (congrArg Prod.fst ha)]
    obtain rfl := h.of_none hnone
    exact ⟨_, .stays _, h, vacant_ne_stale⟩
  | conflict r' hr' _ hne =>
    rw [Memory.effect_of_delete_error (congrArg Prod.fst ha)]
    rcases h.of_some hr' with ⟨rfl, hmem, _⟩ | ⟨machine, rfl, _⟩
    · rw [Option.mem_def.1 hr] at hmem
      cases hmem
      exact absurd rfl hne
    · exact ⟨_, .stays _, h, held_ne_stale⟩
  | ok r' hr' hu =>
    rw [Memory.effect_of_delete_ok (congrArg Prod.fst ha) hr']
    rcases h.of_some hr' with ⟨rfl, hmem, _⟩ | ⟨machine, rfl, _⟩
    · obtain ⟨r₁, hr₁, hget, hgiven, _⟩ := h
      rw [hr'] at hget
      cases hget
      refine ⟨.vacant, .clears hmem, ⟨?_, fun r₂ hr₂ => ⟨?_, fun {r₃} hr₃ => ?_⟩⟩,
        vacant_ne_stale⟩
      · simp only [Table.get?_erase, ↓reduceIte]
      · rw [Option.mem_def.1 hmem] at hr₂
        cases hr₂
        exact hgiven
      · simp only [Table.get?_erase, ↓reduceIte, reduceCtorEq] at hr₃
    · obtain ⟨_, _, _, hgone⟩ := h
      obtain ⟨u, _, hu'⟩ := (hgone r hr).given
      rcases hu with hu | hu
      · rw [hu'] at hu
        cases hu
      · exact absurd hu ((hgone r hr).absent hr')

theorem Phase.Fits.of_missed (h : φ.Fits c stale s.store) (ht : c.Contender t) {k : Key}
    (hm : Meets .arrives s ⟨.read t.key, some (.error (.notFound k))⟩ s') :
    φ = .vacant ∧ s' = s := by
  have hnone := hm.read_notFound
  rw [ht.key] at hnone
  exact ⟨h.of_none hnone, hm.read_state⟩

/-- A call that is outrun is outrun by a contender. -/
theorem Phase.Fits.of_outrun (h : φ.Fits c stale s.store) (ht : c.Contender t) (hφ : φ ≠ .stale)
    {k : Key} (hm : Meets .arrives s ⟨.create t.newRecord, some (.error (.alreadyExists k))⟩ s') :
    (∃ r machine, φ = .held r machine) ∧ s.effect .arrives (.create t.newRecord) = none ∧
      s' = s := by
  obtain ⟨_, ⟨other, ho⟩, rfl⟩ := hm.create_error ht.ns_ne ht.name_ne
  rw [show t.newRecord.key = c.key from ht.key] at ho
  refine ⟨?_, Memory.effect_of_create_error (congrArg Prod.fst hm.arrived), rfl⟩
  rcases h.of_some ho with ⟨hstale, _⟩ | ⟨machine, hheld, _⟩
  · exact absurd hstale hφ
  · exact ⟨other, machine, hheld⟩

/-- A holder that is found is a contender that holds the key. -/
theorem Poised.of_alive {r : Record} {holder : String} (hfinds : c.Finds stale t s.machines)
    (hp : Poised stale φ t (some (.checking r holder))) (hfits : t.Fits (.checking r holder))
    (halive : s.machines.alive t.lookupNs holder = true) :
    Poised stale φ t (some (Task.answer false)) := by
  rcases hp with hp | rfl
  · rw [hfinds.gone hp hfits.2.1] at halive
    cases halive
  · exact ⟨Phase.held_ne_stale, fun _ => ⟨r, holder, rfl, hfits.2.2⟩⟩

/-- A holder that is not found is the one that the stale record names. -/
theorem Poised.of_gone {r : Record} {holder : String} (h : φ.Fits c stale s.store)
    (hfinds : c.Finds stale t s.machines) (hp : Poised stale φ t (some (.checking r holder)))
    (hgone : s.machines.alive t.lookupNs holder = false) : r ∈ stale := by
  rcases hp with hp | rfl
  · exact hp
  · obtain ⟨_, _, hliving, _⟩ := h
    rw [hfinds.alive hliving] at hgone
    cases hgone

/-- A call that has deleted the stale record, or found it deleted, does not hold the key. -/
theorem Poised.of_deleted {r : Record} (hr : r ∈ stale) (hφ : φ ≠ .stale) :
    Poised stale φ t (some (Task.answer false)) := by
  refine ⟨hφ, fun hnone => ?_⟩
  rw [hnone] at hr
  cases hr

/-- A turn of a call is a step to a phase in which the call is poised. All answers arrive, and a
contender's task is to lock, so those are the cases there are. -/
theorem Task.Leads.contends (h : φ.Fits c stale s.store) (hk : ∀ r ∈ stale, r.key = c.key)
    (ht : c.Contender t) (hfinds : c.Finds stale t s.machines) {stage stage' : Stage}
    {e : Exchange} {es : List Event} (hl : t.Leads stage e es stage')
    (hm : Meets .arrives s e s') (hfits : t.Fits stage) (hp : Poised stale φ t (some stage)) :
    ∃ φ', φ.Step c.key stale (s.effect .arrives e.question) φ' ∧ φ'.Fits c stale s'.store ∧
      Poised stale φ' t (some stage') := by
  have hop := ht.locks.operation
  cases hl with
  | unlockRead ho | unlockVacant ho | unlockUnread ho | observedHeld ho | observedMalformed ho
  | observedUnlocked ho | unobserved ho =>
    rw [ho] at hop
    cases hop
  | lockUnread _ he | unreread he => exact absurd hm.read_error (he _)
  | uncreated he => exact absurd (hm.create_error ht.ns_ne ht.name_ne).1 (he _)
  | unchecked => cases hm.arrived
  | lockRead _ hj | reread hj =>
    have hr := hm.read_ok
    rw [ht.key] at hr
    rw [hm.read_state]
    exact ⟨φ, .stays φ, h, hj.poised h ht hfinds hr⟩
  | lockVacant =>
    obtain ⟨rfl, rfl⟩ := h.of_missed ht hm
    exact ⟨.vacant, .stays _, h, Phase.vacant_ne_stale⟩
  | winnerGone =>
    obtain ⟨_, _, rfl⟩ := hp
    cases (h.of_missed ht hm).1
  | created =>
    obtain ⟨r, hstep, hfits'⟩ := h.create ht hm
    exact ⟨_, hstep, hfits', r, rfl⟩
  | outrun =>
    obtain ⟨hheld, heffect, rfl⟩ := h.of_outrun ht hp hm
    exact ⟨φ, heffect ▸ .stays φ, h, hheld⟩
  | alive =>
    obtain ⟨halive, rfl⟩ := hm.alive_ok
    exact ⟨φ, .stays φ, h, hp.of_alive hfinds hfits halive⟩
  | gone =>
    obtain ⟨hgone, rfl⟩ := hm.alive_ok
    exact ⟨φ, .stays φ, h, hp.of_gone h hfinds hgone⟩
  | @removed r gone _ _ | @kept r gone _ _ =>
    obtain ⟨φ', hstep, hfits', hφ'⟩ := h.delete hp (hk r hp) hm
    cases gone with
    | none =>
      rw [show t.operation = .unlock from hfits] at hop
      cases hop
    | some => exact ⟨φ', hstep, hfits', .of_deleted hp hφ'⟩

end

end InitLock.Mutex
