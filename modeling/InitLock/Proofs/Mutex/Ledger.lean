import InitLock.Proofs.Mutex.Solo

/-!
# The ledger of locks

A ledger says for each cluster whether its lock is free, held by a machine or
malformed, and which machines exist. It knows neither payloads nor uids nor the
names of records. A run of whole calls, direct inserts and changes of the
machines is read off a store in memory by `Local.ledger`; one step on the store
is one step of the ledger (`Local.perform_ledger`), so whole runs agree
(`Local.run_refines_ledger`).
-/

namespace InitLock

/-- What tells clusters apart. -/
def Cluster.id (c : Cluster) : Key := ⟨c.ns, c.name⟩

/-- The key of the lock record of the cluster of the given namespace and name. -/
def Config.keyOf (c : Config) (id : Key) : Key := ⟨id.ns, id.name ++ c.suffix⟩

theorem Config.keyOf_inj (c : Config) {id id' : Key} (h : c.keyOf id = c.keyOf id') : id = id' := by
  obtain ⟨ns, name⟩ := id
  obtain ⟨ns', name'⟩ := id'
  simp only [keyOf, Key.mk.injEq] at h
  obtain ⟨rfl, hname⟩ := h
  have hchars := congrArg String.toList hname
  simp only [String.toList_append, List.append_cancel_right_eq, String.toList_inj] at hchars
  rw [hchars]

namespace Mutex

open Store (Memory)

/-! ## Steps of a ledger -/

/-- A step of a sequential run: a whole call, a record put into the store, or a machine that comes
or goes. -/
inductive Step where
  | call (operation : Operation) (cluster : Cluster)
  | insert (record : Record)
  | add (ns machine : String)
  | remove (ns machine : String)

/-- The step is not a call on a cluster whose lock record has no namespace or no name. -/
def Step.Named (c : Config) : Step → Prop
  | .call _ cluster => cluster.ns ≠ "" ∧ c.lockName cluster ≠ ""
  | .insert _ | .add _ _ | .remove _ _ => True

def LockState.ofRecord : Option Record → LockState
  | none => .unlocked
  | some r =>
    match r.holder with
    | .ok machine => .held machine
    | .error m => .malformed m.toError.message

/-- The state of each cluster's lock, and the machines that exist. -/
structure Ledger where
  lock : Key → LockState
  alive : Key → Bool

namespace Ledger

def set (g : Ledger) (id : Key) (state : LockState) : Ledger :=
  { g with lock := fun id' => if id' = id then state else g.lock id' }

def setAlive (g : Ledger) (machine : Key) (alive : Bool) : Ledger :=
  { g with alive := fun machine' => if machine' = machine then alive else g.alive machine' }

/-- A call for a machine that has a name locks a free lock and keeps the lock it holds. A lock of
another machine is left alone while that machine exists and otherwise set free. -/
def lockFor (c : Config) (cluster : Cluster) (machine : String) (g : Ledger) : Finding × Ledger :=
  match g.lock cluster.id with
  | .unlocked => (⟨some (.answered true), []⟩, g.set cluster.id (.held machine))
  | .malformed _ => (⟨some (.answered false), []⟩, g)
  | .held holder =>
    if holder = machine then (⟨some (.answered true), []⟩, g)
    else
      let asked : Key := ⟨c.lookupNs cluster, holder⟩
      (⟨some (.answered false), [asked]⟩,
        if g.alive asked then g else g.set cluster.id .unlocked)

/-- What a call brings, and the ledger after it. -/
def call (c : Config) (cluster : Cluster) (g : Ledger) : Operation → Finding × Ledger
  | .lock machine =>
    if machine = "" then (⟨some (.answered false), []⟩, g) else g.lockFor c cluster machine
  | .unlock => (⟨some (.answered true), []⟩, g.set cluster.id .unlocked)
  | .inspect => (⟨some (.observed (g.lock cluster.id)), []⟩, g)

/-- One step; only calls bring something. -/
def perform (c : Config) (g : Ledger) : Step → Option Finding × Ledger
  | .call operation cluster => (g.call c cluster operation).map some id
  | .insert r =>
    (none, { g with
      lock := fun id => if c.keyOf id = r.key then .ofRecord (some r) else g.lock id })
  | .add ns machine => (none, g.setAlive ⟨ns, machine⟩ true)
  | .remove ns machine => (none, g.setAlive ⟨ns, machine⟩ false)

def run (c : Config) (g : Ledger) : List Step → List Finding × Ledger
  | [] => ([], g)
  | x :: xs =>
    let (finding, g) := g.perform c x
    let (findings, g) := g.run c xs
    (finding.toList ++ findings, g)

end Ledger

/-! ## Steps on a store -/

namespace Local

def perform (c : Config) (s : Local) : Step → Option Finding × Local
  | .call operation cluster => (s.call ⟨operation, cluster, c, false⟩).map some id
  | .insert r => (none, { s with store := (s.store.insert r).2 })
  | .add ns machine => (none, { s with machines := s.machines.add ns machine })
  | .remove ns machine => (none, { s with machines := s.machines.remove ns machine })

def run (c : Config) (s : Local) : List Step → List Finding × Local
  | [] => ([], s)
  | x :: xs =>
    let (finding, s) := s.perform c x
    let (findings, s) := s.run c xs
    (finding.toList ++ findings, s)

/-- The ledger that a store and the machines that exist stand for. -/
def ledger (c : Config) (s : Local) : Ledger where
  lock id := .ofRecord (s.store.records.get? (c.keyOf id))
  alive machine := s.machines.alive machine.ns machine.name

end Local

end Mutex

/-! ## Machines that come and go -/

theorem Liveness.alive_add (l : Liveness) (ns machine : String) (k : Key) :
    (l.add ns machine).alive k.ns k.name =
      if k = ⟨ns, machine⟩ then true else l.alive k.ns k.name := by
  unfold add
  split
  · next h =>
    split
    · next hk => subst hk; exact h
    · rfl
  · split
    · next hk => subst hk; simp [alive]
    · next hk => simp [alive, hk]

theorem Liveness.alive_remove (l : Liveness) (ns machine : String) (k : Key) :
    (l.remove ns machine).alive k.ns k.name =
      if k = ⟨ns, machine⟩ then false else l.alive k.ns k.name := by
  obtain ⟨kns, kname⟩ := k
  split
  · next hk => simp [alive, remove, hk]
  · next hk => simp [alive, remove, hk]

namespace Mutex

open Store (Memory)

theorem LockState.ofRecord_ok {r : Record} {machine : String} (h : r.holder = .ok machine) :
    ofRecord (some r) = .held machine := by
  simp only [ofRecord, h]

theorem LockState.ofRecord_error {r : Record} {m : Record.Malformed} (h : r.holder = .error m) :
    ofRecord (some r) = .malformed m.toError.message := by
  simp only [ofRecord, h]

theorem Record.holder_ne_empty {r : Record} {machine : String} (h : r.holder = .ok machine) :
    machine ≠ "" := by
  unfold Record.holder at h
  split at h
  · cases h
  · split at h
    · cases h
    · split at h
      · cases h
      · next hne => cases h; exact hne

namespace Local

variable {c : Config} {cluster : Cluster} {s : Local}

/-! ## Ledgers of changed stores -/

theorem ledger_withCreated (r : Record) (id : Key) (hk : r.key = c.keyOf id) {machine : String}
    (hr : r.holder = .ok machine) :
    (s.withCreated r).ledger c = (s.ledger c).set id (.held machine) := by
  simp only [ledger, Ledger.set, Ledger.mk.injEq, and_true, withCreated]
  funext id'
  rw [Memory.get?_store]
  by_cases h : id' = id
  · subst h
    rw [if_pos hk.symm, if_pos rfl]
    exact LockState.ofRecord_ok (by rw [Record.holder_withUid, hr])
  · have hne : c.keyOf id' ≠ r.key := fun he => h (c.keyOf_inj (he.trans hk))
    rw [if_neg hne, if_neg h]

theorem ledger_withDeleted (id : Key) :
    (s.withDeleted (c.keyOf id)).ledger c = (s.ledger c).set id .unlocked := by
  simp only [ledger, Ledger.set, Ledger.mk.injEq, and_true, withDeleted]
  funext id'
  rw [Table.get?_erase]
  by_cases h : id' = id
  · subst h
    rw [if_pos rfl, if_pos rfl]
    rfl
  · have hne : c.keyOf id' ≠ c.keyOf id := fun he => h (c.keyOf_inj he)
    rw [if_neg hne, if_neg h]

theorem ledger_set_self (g : Ledger) (id : Key) : g.set id (g.lock id) = g := by
  simp only [Ledger.set]
  congr
  funext id'
  split
  · next h => rw [h]
  · rfl

/-! ## Calls -/

/-- What a call on a store does to the ledger, and that it keeps the store where it keeps the
ledger. -/
structure Records (c : Config) (s : Local) (out : Finding × Local) (spec : Finding × Ledger) :
    Prop where
  finding : out.1 = spec.1
  ledger : out.2.ledger c = spec.2
  kept (h : spec.2 = s.ledger c) : out.2 = s
  change : Memory.Change s.store out.2.store
  machines : out.2.machines = s.machines

theorem Records.of_kept {f : Finding} : Records c s (f, s) (f, s.ledger c) where
  finding := rfl
  ledger := rfl
  kept _ := rfl
  change := .none
  machines := rfl

theorem Records.of_deleted {f : Finding} {r : Record}
    (h : s.store.records.get? (c.lockKey cluster) = some r) :
    Records c s (f, s.withDeleted (c.lockKey cluster)) (f, (s.ledger c).set cluster.id .unlocked)
    where
  finding := rfl
  ledger := ledger_withDeleted cluster.id
  kept hkept := by
    have hlock := congrFun (congrArg Ledger.lock hkept) cluster.id
    simp only [Ledger.set, ↓reduceIte] at hlock
    rw [show (s.ledger c).lock cluster.id = LockState.ofRecord (some r) from
      congrArg LockState.ofRecord h] at hlock
    unfold LockState.ofRecord at hlock
    dsimp only at hlock
    split at hlock <;> cases hlock
  change := .delete _ r h
  machines := rfl

theorem Records.of_created {f : Finding} {r : Record} {machine : String}
    (hk : r.key = c.lockKey cluster) (hr : r.holder = .ok machine)
    (h : s.store.records.get? (c.lockKey cluster) = none) :
    Records c s (f, s.withCreated r) (f, (s.ledger c).set cluster.id (.held machine)) where
  finding := rfl
  ledger := ledger_withCreated r cluster.id hk hr
  kept hkept := by
    have hlock := congrFun (congrArg Ledger.lock hkept) cluster.id
    simp only [Ledger.set, ↓reduceIte] at hlock
    rw [show (s.ledger c).lock cluster.id = LockState.ofRecord none from
      congrArg LockState.ofRecord h] at hlock
    cases hlock
  change := .create r (hk ▸ h)
  machines := rfl

theorem records_lock (hs : s.store.WellFormed) (hns : cluster.ns ≠ "")
    (hname : c.lockName cluster ≠ "") {machine : String} (hm : machine ≠ "") :
    Records c s (s.call ⟨.lock machine, cluster, c, false⟩)
      ((s.ledger c).lockFor c cluster machine) := by
  have ht : (⟨.lock machine, cluster, c, false⟩ : Task).Locks := ⟨rfl, hm⟩
  cases h : s.store.records.get? (c.lockKey cluster) with
  | none =>
    have hlock : (s.ledger c).lock cluster.id = .unlocked := congrArg LockState.ofRecord h
    rw [call_lock_vacant ht hns hname h, Ledger.lockFor, hlock]
    exact .of_created rfl (Record.holder_naming hm _ _) h
  | some r =>
    have hk : r.key = c.lockKey cluster := hs.keyed h
    have hlock : (s.ledger c).lock cluster.id = .ofRecord (some r) := congrArg LockState.ofRecord h
    cases hr : r.holder with
    | error m =>
      rw [call_lock_malformed ht h hr, Ledger.lockFor, hlock, LockState.ofRecord_error hr]
      exact .of_kept
    | ok holder =>
      rw [Ledger.lockFor, hlock, LockState.ofRecord_ok hr]
      by_cases hne : holder = machine
      · rw [call_lock_held ht h (hne ▸ hr)]
        simp only [hne, ↓reduceIte]
        exact .of_kept
      · simp only [hne, ↓reduceIte]
        cases ha : s.machines.alive (c.lookupNs cluster) holder with
        | true =>
          have halive : (s.ledger c).alive ⟨c.lookupNs cluster, holder⟩ = true := ha
          rw [call_lock_alive ht h hr hne ha, if_pos halive]
          exact .of_kept
        | false =>
          have hgone : ¬ (s.ledger c).alive ⟨c.lookupNs cluster, holder⟩ = true :=
            Bool.eq_false_iff.1 ha
          rw [call_lock_gone ht h hk hr hne ha, if_neg hgone]
          exact .of_deleted h

theorem records_unlock (hs : s.store.WellFormed) :
    Records c s (s.call ⟨.unlock, cluster, c, false⟩)
      (⟨some (.answered true), []⟩, (s.ledger c).set cluster.id .unlocked) := by
  cases h : s.store.records.get? (c.lockKey cluster) with
  | none =>
    have hlock : (s.ledger c).lock cluster.id = .unlocked := congrArg LockState.ofRecord h
    rw [call_unlock_vacant rfl h, ← hlock, ledger_set_self]
    exact .of_kept
  | some r =>
    have hcall := call_unlock_some (t := ⟨.unlock, cluster, c, false⟩) rfl h (hs.keyed h)
    rw [hcall]
    exact .of_deleted h

theorem records_inspect :
    Records c s (s.call ⟨.inspect, cluster, c, false⟩)
      (⟨some (.observed ((s.ledger c).lock cluster.id)), []⟩, s.ledger c) := by
  cases h : s.store.records.get? (c.lockKey cluster) with
  | none =>
    have hlock : (s.ledger c).lock cluster.id = .unlocked := congrArg LockState.ofRecord h
    rw [call_inspect_vacant rfl h, hlock]
    exact .of_kept
  | some r =>
    have hlock : (s.ledger c).lock cluster.id = .ofRecord (some r) := congrArg LockState.ofRecord h
    cases hr : r.holder with
    | error m =>
      rw [call_inspect_malformed rfl h hr, hlock, LockState.ofRecord_error hr]
      exact .of_kept
    | ok holder =>
      rw [call_inspect_held rfl h hr, hlock, LockState.ofRecord_ok hr]
      exact .of_kept

/-- A call on a store in memory is the call on its ledger. -/
theorem records_call (hs : s.store.WellFormed) {operation : Operation}
    (hx : (Step.call operation cluster).Named c) :
    Records c s (s.call ⟨operation, cluster, c, false⟩)
      ((s.ledger c).call c cluster operation) := by
  cases operation with
  | lock machine =>
    rw [Ledger.call]
    split
    · next hm =>
      rw [call_nameless (t := ⟨.lock machine, cluster, c, false⟩) (congrArg Operation.lock hm)]
      exact .of_kept
    · next hm => exact records_lock hs hx.1 hx.2 hm
  | unlock => exact records_unlock hs
  | inspect => exact records_inspect

/-! ## Steps and runs -/

/-- A step on a store in memory is the step on its ledger, and leaves the store well formed. -/
theorem perform_ledger (hs : s.store.WellFormed) {x : Step} (hx : x.Named c) :
    (s.perform c x).1 = ((s.ledger c).perform c x).1 ∧
      (s.perform c x).2.ledger c = ((s.ledger c).perform c x).2 ∧
      (s.perform c x).2.store.WellFormed := by
  cases x with
  | call operation cluster =>
    have h := records_call hs hx
    exact ⟨congrArg some h.finding, h.ledger, h.change.wellFormed hs⟩
  | insert r =>
    refine ⟨rfl, ?_, hs.store r⟩
    simp only [ledger, perform, Ledger.perform, Ledger.mk.injEq, and_true, Memory.insert]
    funext id
    rw [Memory.get?_store]
    split <;> rfl
  | add ns machine =>
    refine ⟨rfl, ?_, hs⟩
    simp only [ledger, perform, Ledger.perform, Ledger.setAlive, Ledger.mk.injEq, true_and]
    exact funext fun k => s.machines.alive_add ns machine k
  | remove ns machine =>
    refine ⟨rfl, ?_, hs⟩
    simp only [ledger, perform, Ledger.perform, Ledger.setAlive, Ledger.mk.injEq, true_and]
    exact funext fun k => s.machines.alive_remove ns machine k

theorem run_ledger (hs : s.store.WellFormed) {xs : List Step} (hxs : ∀ x ∈ xs, x.Named c) :
    (s.run c xs).1 = ((s.ledger c).run c xs).1 ∧
      (s.run c xs).2.ledger c = ((s.ledger c).run c xs).2 ∧ (s.run c xs).2.store.WellFormed := by
  induction xs generalizing s with
  | nil => exact ⟨rfl, rfl, hs⟩
  | cons x xs ih =>
    obtain ⟨hfinding, hledger, hs'⟩ := perform_ledger hs (hxs x (List.mem_cons_self ..))
    obtain ⟨hfindings, hledger', hs''⟩ := ih hs' fun y hy => hxs y (List.mem_cons_of_mem _ hy)
    rw [hledger] at hfindings hledger'
    simp only [run, Ledger.run, hfinding, hfindings]
    exact ⟨trivial, hledger', hs''⟩

end Local

/-! ## What the ledger says of locks -/

namespace Ledger

variable {c : Config} {cluster : Cluster} {g : Ledger}

theorem lock_set (state : LockState) (id : Key) :
    (g.set cluster.id state).lock id = if id = cluster.id then state else g.lock id := rfl

/-- A call leaves the ledger as it is, sets its cluster's lock free, or gives a free lock to a
machine. -/
theorem call_cases (operation : Operation) :
    (g.call c cluster operation).2 = g ∨
      (g.call c cluster operation).2 = g.set cluster.id .unlocked ∨
      ∃ machine, g.lock cluster.id = .unlocked ∧
        (g.call c cluster operation).2 = g.set cluster.id (.held machine) := by
  cases operation with
  | lock machine =>
    simp only [call, lockFor]
    split
    · exact .inl rfl
    · split
      · next h => exact .inr (.inr ⟨machine, h, rfl⟩)
      · exact .inl rfl
      · split
        · exact .inl rfl
        · dsimp only
          split
          · exact .inl rfl
          · exact .inr (.inl rfl)
  | unlock => exact .inr (.inl rfl)
  | inspect => exact .inl rfl

/-- No call passes a lock from one machine to another. -/
theorem holder_call {operation : Operation} {id : Key} {m m' : String}
    (h : g.lock id = .held m) (h' : (g.call c cluster operation).2.lock id = .held m') :
    m' = m := by
  rcases @call_cases c cluster g operation with he | he | ⟨machine, hfree, he⟩
  · rw [he, h] at h'
    cases h'
    rfl
  · rw [he, lock_set] at h'
    split at h'
    · cases h'
    · rw [h] at h'
      cases h'
      rfl
  · rw [he, lock_set] at h'
    split at h'
    · next hid =>
      rw [hid, hfree] at h
      cases h
    · rw [h] at h'
      cases h'
      rfl

/-- A lock call answers true just if the machine holds the lock afterwards. -/
theorem answered_true_iff {machine : String} (hg : g.lock cluster.id ≠ .held "") :
    (g.call c cluster (.lock machine)).1.outcome = some (.answered true) ↔
      (g.call c cluster (.lock machine)).2.lock cluster.id = .held machine := by
  simp only [call, lockFor]
  split
  · next hm =>
    subst hm
    simpa using hg
  · split
    · simp [lock_set]
    · next h => simp [h]
    · next holder h =>
      split
      · next hm => simp [h, hm]
      · next hm =>
        dsimp only
        split
        · simp [h, hm]
        · simp [lock_set]

end Ledger

namespace Local

theorem ledger_ne_nameless (c : Config) (s : Local) (id : Key) :
    (s.ledger c).lock id ≠ .held "" := by
  intro h
  simp only [ledger, LockState.ofRecord] at h
  split at h
  · cases h
  · split at h
    · next hr =>
      cases h
      exact Record.holder_ne_empty hr rfl
    · cases h

/-- Sequential runs refine the ledger. What the calls of a run bring, and what the store stands for
after it, are what the ledger says. After any run a call that keeps the ledger keeps the store as
well, passes no lock from one machine to another, and if it is to lock answers true just if an
inspection then finds the lock held by its machine. -/
theorem run_refines_ledger (c : Config) {s : Local} (hs : s.store.Reachable) {xs : List Step}
    (hxs : ∀ x ∈ xs, x.Named c) :
    (s.run c xs).1 = ((s.ledger c).run c xs).1 ∧
      (s.run c xs).2.ledger c = ((s.ledger c).run c xs).2 ∧
      ∀ operation cluster, (Step.call operation cluster).Named c →
        ∀ s' after, s' = (s.run c xs).2 → after = s'.call ⟨operation, cluster, c, false⟩ →
          (after.2.ledger c = s'.ledger c → after.2 = s') ∧
          (∀ id m m', (s'.ledger c).lock id = .held m → (after.2.ledger c).lock id = .held m' →
            m' = m) ∧
          ∀ machine, operation = .lock machine →
            (after.1.outcome = some (.answered true) ↔
              (after.2.call ⟨.inspect, cluster, c, false⟩).1.outcome =
                some (.observed (.held machine))) := by
  obtain ⟨hfindings, hledger, hwell⟩ := run_ledger hs.wellFormed hxs
  refine ⟨hfindings, hledger, ?_⟩
  rintro operation cluster hx s' after rfl rfl
  have hcall := records_call hwell hx
  refine ⟨fun h => hcall.kept (hcall.ledger ▸ h), fun id m m' h h' => ?_, ?_⟩
  · rw [hcall.ledger] at h'
    exact Ledger.holder_call h h'
  · rintro machine rfl
    rw [hcall.finding, Ledger.answered_true_iff (ledger_ne_nameless _ _ _), records_inspect.finding,
      hcall.ledger]
    simp only [Option.some.injEq, Outcome.observed.injEq]

/-- Two machines lock a cluster in turn, the second one after the first one is gone; then a record
that names no holder is put in the place of the second one's. -/
def succession : List Step :=
  let cluster : Cluster := .named "ns" "c" none
  [.call (.lock "a") cluster, .add "eksa-system" "a", .call (.lock "b") cluster,
    .remove "eksa-system" "a", .call (.lock "b") cluster, .call .inspect cluster,
    .call (.lock "b") cluster, .call (.lock "b") cluster,
    .insert ⟨"ns", "c-etcd-lock", none, .empty, none, .empty⟩, .call (.lock "b") cluster,
    .call .unlock cluster, .call .inspect cluster]

theorem run_refines_ledger_succession : (empty.run .default succession).1 =
    [⟨some (.answered true), []⟩, ⟨some (.answered false), [⟨"eksa-system", "a"⟩]⟩,
      ⟨some (.answered false), [⟨"eksa-system", "a"⟩]⟩, ⟨some (.observed .unlocked), []⟩,
      ⟨some (.answered true), []⟩, ⟨some (.answered true), []⟩, ⟨some (.answered false), []⟩,
      ⟨some (.answered true), []⟩, ⟨some (.observed .unlocked), []⟩] := by
  have hnamed : ∀ x ∈ succession, x.Named .default := by
    simp [succession, Step.Named, Cluster.named, Config.lockName, Config.default]
  rw [(run_refines_ledger .default .empty hnamed).1]
  rfl

end Local

end Mutex

end InitLock
