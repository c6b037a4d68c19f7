import InitLock.Mutex.Run

/-!
# The protocol as a relation

`Task.Leads` lists how an answer takes a call from one stage to the next and
what the call reports; it is what `Task.next` computes (`Task.leads`). A stage
`Fits` a task if a call of that task can be at it: only lock calls create or
ask for holders, and a holder in question is the one that the record read last
names.
-/

namespace InitLock.Mutex

namespace Task

/-- The task is to lock for a machine that has a name. -/
structure Locks (t : Task) : Prop where
  operation : t.operation = .lock t.machine
  named : t.machine ≠ ""

/-- What a record means for the machine that asks. -/
inductive Judged (machine : String) (r : Record) : List Event → Stage → Prop
  | malformed {m : Record.Malformed} (h : r.holder = .error m) :
    Judged machine r [.malformed m.toError] (answer false)
  | held (h : r.holder = .ok machine) : Judged machine r [.alreadyHeld] (answer true)
  | other {holder : String} (h : r.holder = .ok holder) (hne : holder ≠ machine) :
    Judged machine r [] (.checking r holder)

theorem judged (machine : String) (r : Record) :
    Judged machine r (judge machine r).1 (judge machine r).2 := by
  unfold judge
  split
  · next h => exact .malformed h
  · next holder h =>
    split
    · next he => exact .held (he ▸ h)
    · next hne => exact .other h hne

/-- How an answer takes a call to its next stage. -/
inductive Leads (t : Task) : Stage → Exchange → List Event → Stage → Prop
  | lockRead {r : Record} {es : List Event} {stage : Stage} (ho : t.operation = .lock t.machine)
    (hj : Judged t.machine r es stage) : Leads t .reading ⟨.read t.key, some (.ok r)⟩ es stage
  | lockVacant {k : Key} (ho : t.operation = .lock t.machine) :
    Leads t .reading ⟨.read t.key, some (.error (.notFound k))⟩ [.attempting] .creating
  | lockUnread {e : StoreError} (ho : t.operation = .lock t.machine) (he : ∀ k, e ≠ .notFound k) :
    Leads t .reading ⟨.read t.key, some (.error e)⟩ [.readFailed e] (answer false)
  | unlockRead {r : Record} (ho : t.operation = .unlock) :
    Leads t .reading ⟨.read t.key, some (.ok r)⟩ [] (.deleting r none)
  | unlockVacant {k : Key} (ho : t.operation = .unlock) :
    Leads t .reading ⟨.read t.key, some (.error (.notFound k))⟩ [.absent] (answer true)
  | unlockUnread {e : StoreError} (ho : t.operation = .unlock) (he : ∀ k, e ≠ .notFound k) :
    Leads t .reading ⟨.read t.key, some (.error e)⟩ [.unlockReadFailed e] (answer false)
  | observedHeld {r : Record} {holder : String} (ho : t.operation = .inspect)
    (h : r.holder = .ok holder) :
    Leads t .reading ⟨.read t.key, some (.ok r)⟩ [] (.ended (.observed (.held holder)))
  | observedMalformed {r : Record} {m : Record.Malformed} (ho : t.operation = .inspect)
    (h : r.holder = .error m) :
    Leads t .reading ⟨.read t.key, some (.ok r)⟩ []
      (.ended (.observed (.malformed m.toError.message)))
  | observedUnlocked {k : Key} (ho : t.operation = .inspect) :
    Leads t .reading ⟨.read t.key, some (.error (.notFound k))⟩ [] (.ended (.observed .unlocked))
  | unobserved {e : StoreError} (ho : t.operation = .inspect) (he : ∀ k, e ≠ .notFound k) :
    Leads t .reading ⟨.read t.key, some (.error e)⟩ [] (.ended (.failed e.toError))
  | created : Leads t .creating ⟨.create t.newRecord, some (.ok ())⟩ [.acquired] (answer true)
  | outrun {k : Key} :
    Leads t .creating ⟨.create t.newRecord, some (.error (.alreadyExists k))⟩ [.lostRace] .rereading
  | uncreated {e : StoreError} (he : ∀ k, e ≠ .alreadyExists k) :
    Leads t .creating ⟨.create t.newRecord, some (.error e)⟩ [.createFailed e] (answer false)
  | reread {r : Record} {es : List Event} {stage : Stage} (hj : Judged t.machine r es stage) :
    Leads t .rereading ⟨.read t.key, some (.ok r)⟩ es stage
  | winnerGone {k : Key} :
    Leads t .rereading ⟨.read t.key, some (.error (.notFound k))⟩ [.winnerGone] (answer false)
  | unreread {e : StoreError} (he : ∀ k, e ≠ .notFound k) :
    Leads t .rereading ⟨.read t.key, some (.error e)⟩ [.rereadFailed e] (answer false)
  | alive {r : Record} {holder : String} :
    Leads t (.checking r holder) ⟨.alive t.lookupNs holder, some (.ok true)⟩ [.waiting holder]
      (answer false)
  | gone {r : Record} {holder : String} :
    Leads t (.checking r holder) ⟨.alive t.lookupNs holder, some (.ok false)⟩
      [.holderGone holder t.lookupNs] (.deleting r (some holder))
  | unchecked {r : Record} {holder : String} {e : Error} :
    Leads t (.checking r holder) ⟨.alive t.lookupNs holder, some (.error e)⟩
      [.livenessFailed holder t.lookupNs e] (answer false)
  | removed {r : Record} {gone : Option String} {a : Except StoreError Unit}
    (h : (deleted a).2 = true) :
    Leads t (.deleting r gone) ⟨.delete r.key r.uid, some a⟩ [(deleted a).1] (answer gone.isNone)
  | kept {r : Record} {gone : Option String} {a : Except StoreError Unit}
    (h : (deleted a).2 = false) :
    Leads t (.deleting r gone) ⟨.delete r.key r.uid, some a⟩
      ((deleted a).1 :: (gone.map Event.staleKept).toList) (answer false)

section
variable {t : Task}

theorem machine_of_lock {m : String} (h : t.operation = .lock m) : t.machine = m := by
  simp only [machine, h]

theorem leads_reading (a : Except StoreError Record) :
    t.Leads .reading ⟨.read t.key, some a⟩ (t.afterRead a).1 (t.afterRead a).2 := by
  cases ho : t.operation with
  | lock machine =>
    have hm := machine_of_lock ho
    subst hm
    simp only [afterRead, ho]
    split
    · next r => exact .lockRead ho (judged _ r)
    · exact .lockVacant ho
    · next e he => exact .lockUnread ho he
  | unlock =>
    simp only [afterRead, ho]
    split
    · exact .unlockRead ho
    · exact .unlockVacant ho
    · next e he => exact .unlockUnread ho he
  | inspect =>
    simp only [afterRead, ho]
    split
    · split
      · next h => exact .observedHeld ho h
      · next h => exact .observedMalformed ho h
    · exact .observedUnlocked ho
    · next e he => exact .unobserved ho he

theorem leads_creating (a : Except StoreError Unit) :
    t.Leads .creating ⟨.create t.newRecord, some a⟩ (afterCreate a).1 (afterCreate a).2 := by
  unfold afterCreate
  split
  · exact .created
  · exact .outrun
  · next e he => exact .uncreated he

theorem leads_rereading (a : Except StoreError Record) :
    t.Leads .rereading ⟨.read t.key, some a⟩ (afterReread t.machine a).1
      (afterReread t.machine a).2 := by
  unfold afterReread
  split
  · next r => exact .reread (judged _ r)
  · exact .winnerGone
  · next e he => exact .unreread he

theorem leads_checking (r : Record) (holder : String) (a : Except Error Bool) :
    t.Leads (.checking r holder) ⟨.alive t.lookupNs holder, some a⟩
      (afterAlive t.lookupNs r holder a).1 (afterAlive t.lookupNs r holder a).2 := by
  unfold afterAlive
  split
  · exact .alive
  · exact .gone
  · exact .unchecked

theorem leads_deleting (r : Record) (gone : Option String) (a : Except StoreError Unit) :
    t.Leads (.deleting r gone) ⟨.delete r.key r.uid, some a⟩ (afterDelete gone a).1
      (afterDelete gone a).2 := by
  obtain ⟨event, done, hd⟩ : ∃ event done, deleted a = (event, done) := ⟨_, _, rfl⟩
  cases done with
  | true =>
    have h : t.Leads (.deleting r gone) ⟨.delete r.key r.uid, some a⟩ [(deleted a).1]
        (answer gone.isNone) := .removed (by rw [hd])
    rw [hd] at h
    cases gone <;> (simp only [afterDelete, hd]; exact h)
  | false =>
    have h : t.Leads (.deleting r gone) ⟨.delete r.key r.uid, some a⟩
        ((deleted a).1 :: (gone.map Event.staleKept).toList) (answer false) := .kept (by rw [hd])
    rw [hd] at h
    cases gone <;> (simp only [afterDelete, hd]; exact h)

/-- The relation is what the protocol computes. -/
theorem leads {stage : Stage} {q : Question} {resume : q.Answer → List Event × Stage}
    (hq : t.next stage = .asks q resume) (a : q.Answer) :
    t.Leads stage ⟨q, some a⟩ (resume a).1 (resume a).2 := by
  cases stage with
  | reading => cases hq; exact leads_reading a
  | creating => cases hq; exact leads_creating a
  | rereading => cases hq; exact leads_rereading a
  | checking r holder => cases hq; exact leads_checking r holder a
  | deleting r gone => cases hq; exact leads_deleting r gone a
  | stalled | ended => cases hq

end

/-! ## Questions that write -/

section
variable {t : Task} {stage stage' : Stage} {es : List Event}

theorem Leads.of_create {r : Record} (h : t.Leads stage ⟨.create r, some (.ok ())⟩ es stage') :
    stage' = answer true := by
  generalize hx : (⟨.create r, some (.ok ())⟩ : Exchange) = x at h
  cases h with
  | created => rfl
  | lockRead | lockVacant | lockUnread | unlockRead | unlockVacant | unlockUnread | observedHeld
  | observedMalformed | observedUnlocked | unobserved | outrun | uncreated | reread | winnerGone
  | unreread | alive | gone | unchecked | removed | kept => cases hx

/-- A call that creates ends, unless another record is there. -/
theorem Leads.ended_of_create {r : Record} {a : Except StoreError Unit}
    (h : t.Leads stage ⟨.create r, some a⟩ es stage') (ha : ∀ k, a ≠ .error (.alreadyExists k)) :
    ∃ b, stage' = answer b := by
  cases h with
  | created | uncreated => exact ⟨_, rfl⟩
  | outrun => exact absurd rfl (ha _)

theorem Leads.ended_of_delete {k : Key} {u : Option String} {a : Except StoreError Unit}
    (h : t.Leads stage ⟨.delete k u, some a⟩ es stage') : ∃ b, stage' = answer b := by
  cases h with
  | removed | kept => exact ⟨_, rfl⟩

theorem Leads.stage_of_create {x : Exchange} {r : Record} (h : t.Leads stage x es stage')
    (hx : x.question = .create r) : stage = .creating ∧ r = t.newRecord := by
  cases h with
  | created | outrun | uncreated => cases hx; exact ⟨rfl, rfl⟩
  | lockRead | lockVacant | lockUnread | unlockRead | unlockVacant | unlockUnread | observedHeld
  | observedMalformed | observedUnlocked | unobserved | reread | winnerGone | unreread | alive
  | gone | unchecked | removed | kept => cases hx

theorem Leads.stage_of_read {x : Exchange} {k : Key} (h : t.Leads stage x es stage')
    (hx : x.question = .read k) : (stage = .reading ∨ stage = .rereading) ∧ k = t.key := by
  cases h with
  | lockRead | lockVacant | lockUnread | unlockRead | unlockVacant | unlockUnread | observedHeld
  | observedMalformed | observedUnlocked | unobserved => cases hx; exact ⟨.inl rfl, rfl⟩
  | reread | winnerGone | unreread => cases hx; exact ⟨.inr rfl, rfl⟩
  | created | outrun | uncreated | alive | gone | unchecked | removed | kept => cases hx

/-- A call deletes by the key and the uid of the record it has read. -/
theorem Leads.of_delete {k : Key} {u : Option String} {a : Option (Except StoreError Unit)}
    (h : t.Leads stage ⟨.delete k u, a⟩ es stage') :
    ∃ r gone, stage = .deleting r gone ∧ k = r.key ∧ u = r.uid := by
  generalize hx : (⟨.delete k u, a⟩ : Exchange) = x at h
  cases h with
  | removed | kept => cases hx; exact ⟨_, _, rfl, rfl, rfl⟩
  | lockRead | lockVacant | lockUnread | unlockRead | unlockVacant | unlockUnread | observedHeld
  | observedMalformed | observedUnlocked | unobserved | created | outrun | uncreated | reread
  | winnerGone | unreread | alive | gone | unchecked => cases hx

end

/-! ## Stages that fit -/

def Fits (t : Task) : Stage → Prop
  | .reading => t.operation ≠ .lock ""
  | .creating | .rereading => t.Locks
  | .checking r holder | .deleting r (some holder) =>
    t.Locks ∧ r.holder = .ok holder ∧ holder ≠ t.machine
  | .deleting _ none => t.operation = .unlock
  | .stalled => False
  | .ended _ => True

theorem start_eq (t : Task) : t.start.2 = .reading ∨ t.start.2 = answer false := by
  unfold start
  split
  · split
    · exact .inr rfl
    · exact .inl rfl
  · exact .inl rfl
  · exact .inl rfl

theorem start_eq_reading {t : Task} (h : t.operation ≠ .lock "") : t.start.2 = .reading := by
  unfold start
  split
  · next machine ho =>
    have hm : machine ≠ "" := fun hm => h (hm ▸ ho)
    rw [if_neg hm]
  · rfl
  · rfl

theorem Locks.ne_nameless {t : Task} (h : t.Locks) : t.operation ≠ .lock "" :=
  fun ho => h.named (machine_of_lock ho)

theorem fits_start (t : Task) : t.Fits t.start.2 := by
  unfold start
  split
  · next machine ho =>
    split
    · exact trivial
    · next hm =>
      show t.operation ≠ .lock ""
      rw [ho]
      intro he
      cases he
      exact hm rfl
  · next ho =>
    show t.operation ≠ .lock ""
    simp [ho]
  · next ho =>
    show t.operation ≠ .lock ""
    simp [ho]

theorem Judged.fits {t : Task} (ht : t.Locks) {r : Record} {es : List Event} {stage : Stage}
    (h : Judged t.machine r es stage) : t.Fits stage := by
  cases h with
  | malformed | held => exact trivial
  | other h hne => exact ⟨ht, h, hne⟩

theorem Leads.fits {t : Task} {stage stage' : Stage} {x : Exchange} {es : List Event}
    (h : t.Leads stage x es stage') (hf : t.Fits stage) : t.Fits stage' := by
  cases h with
  | lockRead ho hj => exact hj.fits ⟨ho, fun he => hf (he ▸ ho)⟩
  | lockVacant ho => exact ⟨ho, fun he => hf (he ▸ ho)⟩
  | unlockRead ho => exact ho
  | outrun => exact hf
  | reread hj => exact hj.fits hf
  | gone => exact hf
  | lockUnread | unlockVacant | unlockUnread | observedHeld | observedMalformed | observedUnlocked
  | unobserved | created | uncreated | winnerGone | unreread | alive | unchecked | removed | kept =>
    exact trivial

end Task

end InitLock.Mutex
