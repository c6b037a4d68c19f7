import InitLock.Proofs.Mutex.Exclusion

/-!
# Transcripts of lock calls

The transcript of a call lists what it asked and was answered. `Task.Path` is how a transcript takes
a call from its beginning to a stage, and a backend that answers every question runs a call along
such a path to its end (`Run.complete_path`). For a lock call the path before its last answer is one
of a few (`Task.Path.asked`). So whatever it is answered, it asks only what `Task.Allows`, and it
answers true only on a record that it created or that names its machine (`Run.lock_fails_closed`).
-/

namespace InitLock

/-- The question belongs to the reclaim of another machine's record. -/
def Question.isReclaim : Question → Bool
  | .alive _ _ | .delete _ _ => true
  | .read _ | .create _ => false

namespace Mutex

variable {σ : Type}

/-! ## Paths -/

/-- These exchanges take a call from its beginning to the stage. -/
inductive Task.Path (t : Task) : List Exchange → Stage → Prop
  | nil : Path t [] t.start.2
  | concat {xs : List Exchange} {x : Exchange} {es : List Event} {stage stage' : Stage}
    (h : Path t xs stage) (hl : t.Leads stage x es stage') : Path t (xs ++ [x]) stage'

/-- How many questions a call at the stage asks at most. -/
def Stage.remaining : Stage → Nat
  | .reading => 5
  | .creating => 4
  | .rereading => 3
  | .checking _ _ => 2
  | .deleting _ _ => 1
  | .stalled | .ended _ => 0

/-- The backend answers every question. -/
def Backend.Answers (b : Backend σ) : Prop := ∀ q s, ∃ a, (b q s).1.answer = some a

/-- The call cannot be cancelled, or its token does not fire. -/
def Backend.Undisturbed (b : Backend σ) (t : Task) (fired : Bool) : Prop :=
  t.cancellable = false ∨ fired = false ∧ ∀ q s, (b q s).1.fires = false

/-- A run of the task has come along a path, and nothing cancels it. -/
structure Run.Along (b : Backend σ) (t : Task) (r : Run σ) : Prop where
  task : r.call.task = t
  undisturbed : b.Undisturbed t r.fired
  path : t.Path r.exchanges r.call.stage

section
variable {t : Task} {stage stage' : Stage} {x : Exchange} {xs : List Exchange} {es : List Event}
  {b : Backend σ} {r : Run σ}

theorem Task.Judged.remaining_le {machine : String} {r : Record}
    (h : Judged machine r es stage) : stage.remaining ≤ 2 := by
  cases h <;> simp [Stage.remaining, Task.answer]

/-- Each answer leaves fewer questions to ask. -/
theorem Task.Leads.remaining_lt (h : t.Leads stage x es stage') :
    stage'.remaining < stage.remaining := by
  cases h with
  | lockRead _ hj | reread hj => exact Nat.lt_of_le_of_lt hj.remaining_le (by decide)
  | lockVacant | lockUnread | unlockRead | unlockVacant | unlockUnread | observedHeld
  | observedMalformed | observedUnlocked | unobserved | created | outrun | uncreated | winnerGone
  | unreread | alive | gone | unchecked | removed | kept =>
    simp [Stage.remaining, Task.answer]

theorem Task.Path.fits (h : t.Path xs stage) : t.Fits stage := by
  induction h with
  | nil => exact t.fits_start
  | concat _ hl ih => exact hl.fits ih

theorem Task.Path.of_ended_start (h : t.Path xs stage) {o : Outcome} (hs : t.start.2 = .ended o) :
    xs = [] ∧ stage = .ended o := by
  induction h with
  | nil => exact ⟨rfl, hs⟩
  | concat _ hl ih =>
    rw [ih.2] at hl
    cases hl

/-- A path goes through each of its exchanges. -/
theorem Task.Path.through (h : t.Path xs stage) {past rest : List Exchange} {y : Exchange}
    (he : xs = past ++ y :: rest) :
    ∃ stage₁ es stage₂, t.Path past stage₁ ∧ t.Leads stage₁ y es stage₂ ∧
      t.Path (past ++ [y]) stage₂ := by
  induction h generalizing rest with
  | nil => simp at he
  | @concat xs x es stage stage' hp hl ih =>
    rcases List.eq_nil_or_concat rest with rfl | ⟨rest', z, rfl⟩
    · obtain ⟨rfl, hxy⟩ := List.append_inj' he rfl
      cases hxy
      exact ⟨_, _, _, hp, hl, hp.concat hl⟩
    · have he' : xs ++ [x] = (past ++ y :: rest') ++ [z] := by simpa using he
      exact ih (List.append_inj' he' rfl).1

/-- A delete is the last exchange of a call. -/
theorem Task.Path.nil_of_delete (h : t.Path xs stage) {past rest : List Exchange} {k : Key}
    {u : Option String} {a : Option (Except StoreError Unit)}
    (he : xs = past ++ ⟨.delete k u, a⟩ :: rest) : rest = [] := by
  cases rest with
  | nil => rfl
  | cons y rest =>
    have he' : xs = (past ++ [⟨.delete k u, a⟩]) ++ y :: rest := by simpa using he
    obtain ⟨stage₁, _, _, hp, hl, -⟩ := h.through he'
    generalize hys : past ++ [⟨.delete k u, a⟩] = ys at hp
    cases hp with
    | nil => simp at hys
    | concat _ hl' =>
      cases (List.append_inj' hys rfl).2
      obtain ⟨_, _, rfl, -⟩ := hl'.of_delete
      cases hl' <;> cases hl

theorem Task.Path.nil_of_reading (h : t.Path xs .reading) : xs = [] := by
  generalize hs : Stage.reading = stage at h
  cases h with
  | nil => rfl
  | concat _ hl =>
    cases hl with
    | lockRead _ hj | reread hj => cases hj <;> cases hs
    | _ => cases hs

theorem Task.Path.read_of_checking {r : Record} {holder : String}
    (h : t.Path xs (.checking r holder)) :
    ∃ past, xs = past ++ [⟨.read t.key, some (.ok r)⟩] := by
  generalize hs : Stage.checking r holder = stage at h
  cases h with
  | nil =>
    rcases t.start_eq with hstart | hstart <;> rw [hstart] at hs <;> cases hs
  | concat _ hl =>
    cases hl with
    | lockRead _ hj | reread hj =>
      cases hj with
      | malformed | held => cases hs
      | other => cases hs; exact ⟨_, rfl⟩
    | _ => cases hs

/-- What a call has asked when it is about to delete a record. -/
theorem Task.Path.of_deleting {r : Record} {gone : Option String}
    (h : t.Path xs (.deleting r gone)) :
    (gone = none ∧ xs = [⟨.read t.key, some (.ok r)⟩]) ∨
      ∃ past holder, gone = some holder ∧ xs = past ++ [⟨.read t.key, some (.ok r)⟩,
        ⟨.alive t.lookupNs holder, some (.ok false)⟩] := by
  generalize hs : Stage.deleting r gone = stage at h
  cases h with
  | nil =>
    rcases t.start_eq with hstart | hstart <;> rw [hstart] at hs <;> cases hs
  | concat hp hl =>
    cases hl with
    | lockRead _ hj | reread hj => cases hj <;> cases hs
    | unlockRead =>
      cases hs
      obtain rfl := hp.nil_of_reading
      exact .inl ⟨rfl, rfl⟩
    | gone =>
      cases hs
      obtain ⟨past, rfl⟩ := hp.read_of_checking
      exact .inr ⟨past, _, rfl, List.append_assoc ..⟩
    | _ => cases hs

/-- What an unlock call that answers true has asked: it found no record, or it deleted the one that
it found. -/
theorem Task.Path.unlocked (h : t.Path xs (answer true)) (ho : t.operation = .unlock) :
    (∃ k, xs = [⟨.read t.key, some (.error (.notFound k))⟩]) ∨
      ∃ r a, xs = [⟨.read t.key, some (.ok r)⟩, ⟨.delete r.key r.uid, some a⟩] ∧
        (deleted a).2 = true := by
  have hnot : ¬ t.Locks := fun ht => by
    have := ht.operation
    rw [ho] at this
    cases this
  generalize hs : answer true = stage at h
  cases h with
  | nil => rcases t.start_eq with hstart | hstart <;> rw [hstart] at hs <;> cases hs
  | concat hp hl =>
    cases hl with
    | unlockVacant =>
      obtain rfl := hp.nil_of_reading
      exact .inl ⟨_, rfl⟩
    | lockRead ho' =>
      rw [ho] at ho'
      cases ho'
    | created | reread => exact absurd hp.fits hnot
    | @removed r gone a ha =>
      obtain ⟨-, rfl⟩ | ⟨past, holder, rfl, -⟩ := hp.of_deleting
      · exact .inr ⟨r, a, rfl, ha⟩
      · cases hs
    | _ => cases hs

/-! ## Runs along a path -/

theorem Backend.Undisturbed.noticed (h : b.Undisturbed r.call.task r.fired) :
    r.noticed = false := by
  rcases h with h | ⟨h, -⟩ <;> simp [Run.noticed, h]

theorem Backend.Undisturbed.or {fired : Bool} {q : Question} {s : σ} (h : b.Undisturbed t fired) :
    b.Undisturbed t (fired || (b q s).1.fires) := by
  rcases h with h | ⟨rfl, hb⟩
  · exact .inl h
  · exact .inr ⟨by rw [hb, Bool.or_false], hb⟩

/-- A turn that is answered takes the run one exchange further. -/
theorem Run.turn_answered {q : Question} {resume : q.Answer → List Event × Stage} {a : q.Answer}
    (hq : r.call.task.next r.call.stage = .asks q resume) (hn : r.noticed = false)
    (ha : (b q r.state).1.answer = some a) :
    (r.turn b).call = ⟨r.call.task, (resume a).2⟩ ∧
      (r.turn b).exchanges = r.exchanges ++ [⟨q, some a⟩] ∧
      (r.turn b).fired = (r.fired || (b q r.state).1.fires) := by
  simp only [turn, hq, hn, ha, Bool.false_eq_true, ↓reduceIte, goTo, and_self]

/-- A turn asks the backend one question at most. -/
theorem Run.turn_cases (b : Backend σ) (r : Run σ) :
    ((r.turn b).exchanges = r.exchanges ∧ (r.turn b).state = r.state) ∨
      ∃ q, (r.turn b).exchanges = r.exchanges ++ [⟨q, (b q r.state).1.answer⟩] ∧
        (r.turn b).state = (b q r.state).2 := by
  unfold Run.turn
  split
  · exact .inl ⟨rfl, rfl⟩
  · exact .inl ⟨rfl, rfl⟩
  · next q resume hq =>
    split
    · exact .inl ⟨rfl, rfl⟩
    · refine .inr ⟨q, ?_⟩
      dsimp only
      split
      · exact ⟨rfl, rfl⟩
      · split <;> exact ⟨rfl, rfl⟩

/-- A turn keeps a run on its path and, unless it has ended, leaves fewer questions. -/
theorem Run.Along.turn (hb : b.Answers) (h : r.Along b t) :
    (r.turn b).Along b t ∧ (r.turn b).call.stage.remaining ≤ r.call.stage.remaining - 1 := by
  obtain ⟨rfl, hu, hp⟩ := h
  cases hnext : r.call.task.next r.call.stage with
  | ended | stalled =>
    have hturn : r.turn b = r := by simp only [Run.turn, hnext]
    have hzero : r.call.stage.remaining = 0 := by
      generalize r.call.stage = stage at hnext
      cases stage <;> first | rfl | cases hnext
    rw [hturn, hzero]
    exact ⟨⟨rfl, hu, hp⟩, Nat.zero_le _⟩
  | asks q resume =>
    obtain ⟨a, ha⟩ := hb q r.state
    obtain ⟨hcall, hxs, hfired⟩ := turn_answered hnext hu.noticed ha
    have hl := Task.leads hnext a
    rw [hcall]
    refine ⟨⟨by rw [hcall], ?_, ?_⟩, Nat.le_sub_one_of_lt hl.remaining_lt⟩
    · rw [hfired]
      exact hu.or
    · rw [hcall, hxs]
      exact hp.concat hl

theorem Run.Along.turns (hb : b.Answers) (h : r.Along b t) (n : Nat) :
    (r.turns b n).Along b t ∧ (r.turns b n).call.stage.remaining ≤ r.call.stage.remaining - n := by
  induction n generalizing r with
  | zero => exact ⟨h, Nat.le_refl _⟩
  | succ n ih =>
    obtain ⟨hturn, hle⟩ := h.turn hb
    obtain ⟨hturns, hle'⟩ := ih hturn
    refine ⟨hturns, ?_⟩
    rw [Run.turns]
    omega

/-- A backend that answers every question runs a call along a path to its end. -/
theorem Run.complete_path (hb : b.Answers) {fired : Bool} (hu : b.Undisturbed t fired) (s : σ) :
    ∃ o, (complete b t fired s).call.outcome? = some o ∧
      t.Path (complete b t fired s).exchanges (.ended o) := by
  have hbegin : (begin t fired s).Along b t := ⟨rfl, hu, .nil⟩
  obtain ⟨⟨-, -, hp⟩, hle⟩ := hbegin.turns hb 5
  change t.Path (complete b t fired s).exchanges (complete b t fired s).call.stage at hp
  have hstart : t.start.2.remaining ≤ 5 := by
    rcases t.start_eq with h | h <;> rw [h] <;> decide
  have hzero : (complete b t fired s).call.stage.remaining = 0 := by
    have : (complete b t fired s).call.stage.remaining ≤ t.start.2.remaining - 5 := hle
    omega
  have hfits := hp.fits
  generalize (complete b t fired s).call = c at hzero hp hfits
  obtain ⟨task, stage⟩ := c
  cases stage with
  | ended o => exact ⟨o, rfl, hp⟩
  | stalled => exact absurd hfits id
  | reading | creating | rereading | checking | deleting => cases hzero

end

/-! ## What a lock call asks -/

/-- The record that an exchange has read, if it has read one. -/
def Exchange.record? : Exchange → Option Record
  | ⟨.read _, some (.ok r)⟩ => some r
  | _ => none

def lastRecord? (xs : List Exchange) : Option Record := (xs.filterMap Exchange.record?).getLast?

/-- What a lock call may ask after what has passed. -/
def Task.Allows (t : Task) (past : List Exchange) : Question → Prop
  | .read k => k = t.key ∧
      (past = [] ∨ ∃ r k', past.getLast? = some ⟨.create r, some (.error (.alreadyExists k'))⟩)
  | .create r => r.key = t.key ∧ r.holder = .ok t.machine ∧
      ∃ k, past = [⟨.read t.key, some (.error (.notFound k))⟩]
  | .alive ns holder => ns = t.lookupNs ∧ holder ≠ t.machine ∧
      ∃ r, past.getLast? = some ⟨.read t.key, some (.ok r)⟩ ∧ r.holder = .ok holder
  | .delete k u => ∃ r holder, lastRecord? past = some r ∧ k = r.key ∧ u = r.uid ∧
      r.holder = .ok holder ∧ past.getLast? = some ⟨.alive t.lookupNs holder, some (.ok false)⟩

/-- What has passed when a lock call comes to read a record: nothing, or there was no record and
then another was created first. -/
inductive Task.Reads (t : Task) : List Exchange → Prop
  | first : Reads t []
  | again (k k' : Key) :
    Reads t [⟨.read t.key, some (.error (.notFound k))⟩,
      ⟨.create t.newRecord, some (.error (.alreadyExists k'))⟩]

/-- What has passed when a lock call comes to a stage before its end. -/
inductive Task.Asked (t : Task) : List Exchange → Stage → Prop
  | reading : Asked t [] .reading
  | creating (k : Key) : Asked t [⟨.read t.key, some (.error (.notFound k))⟩] .creating
  | rereading (k k' : Key) :
    Asked t [⟨.read t.key, some (.error (.notFound k))⟩,
      ⟨.create t.newRecord, some (.error (.alreadyExists k'))⟩] .rereading
  | checking {xs : List Exchange} {r : Record} {holder : String} (hxs : t.Reads xs)
    (hr : r.holder = .ok holder) (hne : holder ≠ t.machine) :
    Asked t (xs ++ [⟨.read t.key, some (.ok r)⟩]) (.checking r holder)
  | deleting {xs : List Exchange} {r : Record} {holder : String} (hxs : t.Reads xs)
    (hr : r.holder = .ok holder) (hne : holder ≠ t.machine) :
    Asked t (xs ++ [⟨.read t.key, some (.ok r)⟩] ++ [⟨.alive t.lookupNs holder, some (.ok false)⟩])
      (.deleting r (some holder))

/-- A lock call has answered, after what has passed and one exchange more. -/
def Task.Concluded (t : Task) (xs : List Exchange) (b : Bool) : Prop :=
  ∃ past x stage es, t.Asked past stage ∧ t.Leads stage x es (answer b) ∧ xs = past ++ [x]

/-- How many questions of each kind there are at most. -/
structure Bounded (xs : List Exchange) : Prop where
  reads : (xs.countP fun x => x.question matches .read _) ≤ 2
  creates : (xs.countP fun x => x.question matches .create _) ≤ 1
  lookups : (xs.countP fun x => x.question matches .alive _ _) ≤ 1
  deletes : (xs.countP fun x => x.question matches .delete _ _) ≤ 1

section
variable {t : Task} {stage stage' : Stage} {xs : List Exchange} {x : Exchange} {es : List Event}
  {b : Bool}

theorem lastRecord?_concat (xs : List Exchange) (x : Exchange) :
    lastRecord? (xs ++ [x]) = x.record?.or (lastRecord? xs) := by
  rw [lastRecord?, List.filterMap_append, List.getLast?_append]
  cases hx : x.record? with
  | none => rw [List.filterMap_cons_none hx]; rfl
  | some r => rw [List.filterMap_cons_some hx]; rfl

theorem Exchange.of_record? {r : Record} (h : x.record? = some r) :
    ∃ k, x = ⟨.read k, some (.ok r)⟩ := by
  unfold record? at h
  split at h
  · cases h; exact ⟨_, rfl⟩
  · cases h

/-! ### The stages of a lock call -/

theorem Task.Asked.fits (ht : t.Locks) (h : t.Asked xs stage) : t.Fits stage := by
  cases h with
  | reading => exact ht.ne_nameless
  | creating | rereading => exact ht
  | checking _ hr hne | deleting _ hr hne => exact ⟨ht, hr, hne⟩

theorem Task.Asked.leads (ht : t.Locks) (h : t.Asked xs stage) (hl : t.Leads stage x es stage') :
    t.Asked (xs ++ [x]) stage' ∨ ∃ b, stage' = answer b := by
  cases hl with
  | lockRead _ hj =>
    cases h
    cases hj with
    | malformed | held => exact .inr ⟨_, rfl⟩
    | other hr hne => exact .inl (.checking .first hr hne)
  | reread hj =>
    cases h
    cases hj with
    | malformed | held => exact .inr ⟨_, rfl⟩
    | other hr hne => exact .inl (.checking (.again _ _) hr hne)
  | lockVacant => cases h; exact .inl (.creating _)
  | outrun => cases h; exact .inl (.rereading _ _)
  | gone =>
    cases h with
    | checking hxs hr hne => exact .inl (.deleting hxs hr hne)
  | lockUnread | created | uncreated | winnerGone | unreread | alive | unchecked | removed | kept =>
    exact .inr ⟨_, rfl⟩
  | unlockRead ho | unlockVacant ho | unlockUnread ho | observedHeld ho | observedMalformed ho
  | observedUnlocked ho | unobserved ho =>
    have := ht.operation
    rw [ho] at this
    cases this

/-- A lock call for a machine that has a name is at a stage before its end, or it has answered. -/
theorem Task.Path.asked (ht : t.Locks) (h : t.Path xs stage) :
    t.Asked xs stage ∨ ∃ b, stage = answer b ∧ t.Concluded xs b := by
  induction h with
  | nil =>
    rw [start_eq_reading ht.ne_nameless]
    exact .inl .reading
  | concat _ hl ih =>
    rcases ih with h | ⟨b, rfl, -⟩
    · rcases h.leads ht hl with h' | ⟨b, rfl⟩
      · exact .inl h'
      · exact .inr ⟨b, rfl, _, _, _, _, h, hl, rfl⟩
    · cases hl

/-- The next question is one that the call may ask. -/
theorem Task.Asked.allows (ht : t.Locks) (h : t.Asked xs stage) (hl : t.Leads stage x es stage') :
    t.Allows xs x.question := by
  cases h with
  | reading => cases hl <;> exact ⟨rfl, .inl rfl⟩
  | creating k =>
    have hnew : t.newRecord.holder = .ok t.machine := Record.holder_naming ht.named _ _
    cases hl <;> exact ⟨rfl, hnew, k, rfl⟩
  | rereading k k' => cases hl <;> exact ⟨rfl, .inr ⟨_, k', rfl⟩⟩
  | checking hxs hr hne => cases hl <;> exact ⟨rfl, hne, _, List.getLast?_concat, hr⟩
  | deleting hxs hr hne =>
    cases hl <;>
      exact ⟨_, _, by simp only [lastRecord?_concat]; rfl, rfl, rfl, hr, List.getLast?_concat⟩

theorem Task.Asked.bounded (h : t.Asked xs stage) (hl : t.Leads stage x es stage') :
    Bounded (xs ++ [x]) := by
  cases h with
  | reading | creating | rereading => cases hl <;> constructor <;> simp
  | checking hxs | deleting hxs => cases hxs <;> cases hl <;> constructor <;> simp

/-! ### The answer of a lock call -/

/-- Before its last answer a lock call has created nothing and read no record that names its
machine. -/
theorem Task.Asked.undecided (h : t.Asked xs stage) :
    (∀ r, ⟨.create r, some (.ok ())⟩ ∉ xs) ∧
      ∀ r, lastRecord? xs = some r → r.holder ≠ .ok t.machine := by
  have hread {past : List Exchange} {r : Record} {holder : String} (hr : r.holder = .ok holder)
      (hne : holder ≠ t.machine) : ∀ r',
      lastRecord? (past ++ [⟨.read t.key, some (.ok r)⟩]) = some r' →
        r'.holder ≠ .ok t.machine := by
    intro r' hr'
    rw [lastRecord?_concat] at hr'
    cases hr'
    rw [hr]
    exact fun he => hne (Except.ok.inj he)
  cases h with
  | reading | creating | rereading => exact ⟨by simp, nofun⟩
  | checking hxs hr hne => exact ⟨by cases hxs <;> simp, hread hr hne⟩
  | deleting hxs hr hne =>
    refine ⟨by cases hxs <;> simp, fun r' hr' => ?_⟩
    rw [lastRecord?_concat] at hr'
    exact hread hr hne r' hr'

theorem Task.Judged.stage_of_holder {machine : String} {r : Record} (h : Judged machine r es stage)
    (hr : r.holder = .ok machine) : stage = answer true := by
  cases h with
  | malformed h =>
    rw [hr] at h
    cases h
  | held => rfl
  | other h hne =>
    rw [hr] at h
    exact absurd (Except.ok.inj h).symm hne

/-- A lock call that reads a record that names its machine answers true. -/
theorem Task.Leads.of_read {k : Key} {r : Record}
    (hl : t.Leads stage ⟨.read k, some (.ok r)⟩ es stage') (ht : t.Locks)
    (hr : r.holder = .ok t.machine) : stage' = answer true := by
  generalize hx : (⟨.read k, some (.ok r)⟩ : Exchange) = x at hl
  cases hl with
  | lockRead _ h | reread h => cases hx; exact h.stage_of_holder hr
  | unlockRead ho | observedHeld ho | observedMalformed ho =>
    have := ht.operation
    rw [ho] at this
    cases this
  | lockVacant | lockUnread | unlockVacant | unlockUnread | observedUnlocked | unobserved | created
  | outrun | uncreated | winnerGone | unreread | alive | gone | unchecked | removed | kept =>
    cases hx

/-- A lock call answers true just if it has created a record, or the last one it read names its
machine. -/
theorem Task.Concluded.true_iff (ht : t.Locks) (h : t.Concluded xs b) :
    b = true ↔ (∃ r, ⟨.create r, some (.ok ())⟩ ∈ xs) ∨
      ∃ r, lastRecord? xs = some r ∧ r.holder = .ok t.machine := by
  obtain ⟨past, x, stage, es, hpast, hl, rfl⟩ := h
  obtain ⟨hcreated, hread⟩ := hpast.undecided
  constructor
  · rintro rfl
    rcases hl.true_of_lock (hpast.fits ht) ht.operation with ⟨r, rfl, hr⟩ | ⟨-, rfl⟩
    · exact .inr ⟨r, by rw [lastRecord?_concat]; rfl, hr⟩
    · exact .inl ⟨_, List.mem_append_right _ (List.mem_singleton_self _)⟩
  · rintro (⟨r, hr⟩ | ⟨r, hlast, hr⟩)
    · rcases List.mem_append.1 hr with hr | hr
      · exact absurd hr (hcreated r)
      · cases List.mem_singleton.1 hr
        exact answer_inj hl.of_create
    · rw [lastRecord?_concat] at hlast
      cases hx : x.record? with
      | none =>
        rw [hx] at hlast
        exact absurd hr (hread r hlast)
      | some r' =>
        rw [hx] at hlast
        cases hlast
        obtain ⟨k, rfl⟩ := Exchange.of_record? hx
        exact answer_inj (hl.of_read ht hr)

/-- A lock call answers false, or it has come to no reclaim. -/
theorem Task.Concluded.false_or_unclaimed (h : t.Concluded xs b) :
    b = false ∨ ∀ y ∈ xs, y.question.isReclaim = false := by
  obtain ⟨past, x, stage, es, hpast, hl, rfl⟩ := h
  generalize hs : answer b = stage' at hl
  cases hpast with
  | reading | creating | rereading => cases hl <;> exact .inr (by simp [Question.isReclaim])
  | checking | deleting => cases hl <;> first | exact .inl (answer_inj hs) | cases hs

end

/-! ## Whatever the answers -/

/-- What the transcript of a lock call that answers `b` says. -/
structure FailsClosed (t : Task) (xs : List Exchange) (b : Bool) : Prop where
  bounded : Bounded xs
  allows {past rest : List Exchange} {x : Exchange} (h : xs = past ++ x :: rest) :
    t.Allows past x.question
  delete_last {past rest : List Exchange} {k : Key} {u : Option String}
    {a : Option (Except StoreError Unit)} (h : xs = past ++ ⟨.delete k u, a⟩ :: rest) : rest = []
  true_iff : b = true ↔ (∃ r, ⟨.create r, some (.ok ())⟩ ∈ xs) ∨
    ∃ r, lastRecord? xs = some r ∧ r.holder = .ok t.machine
  false_of_reclaim {x : Exchange} (hx : x ∈ xs) (h : x.question.isReclaim = true) : b = false
  nameless (h : t.machine = "") : xs = [] ∧ b = false

section
variable {t : Task} {xs : List Exchange} {b : Bool}

theorem Task.start_nameless (h : t.operation = .lock "") : t.start.2 = answer false := by
  unfold start
  rw [h]
  rfl

theorem FailsClosed.of_nameless : FailsClosed t [] false where
  bounded := ⟨by simp, by simp, by simp, by simp⟩
  allows h := by simp at h
  delete_last h := by simp at h
  true_iff := by simp [lastRecord?]
  false_of_reclaim hx := by cases hx
  nameless _ := ⟨rfl, rfl⟩

theorem FailsClosed.of_path (ht : t.Locks) (hp : t.Path xs (Task.answer b))
    (hc : t.Concluded xs b) : FailsClosed t xs b where
  bounded := by
    obtain ⟨past, x, stage, es, hpast, hl, rfl⟩ := hc
    exact hpast.bounded hl
  allows h := by
    obtain ⟨stage, es, stage', hpast, hl, -⟩ := hp.through h
    rcases hpast.asked ht with ha | ⟨_, rfl, -⟩
    · exact ha.allows ht hl
    · cases hl
  delete_last h := hp.nil_of_delete h
  true_iff := hc.true_iff ht
  false_of_reclaim hx h := by
    rcases hc.false_or_unclaimed with hb | hun
    · exact hb
    · rw [hun _ hx] at h
      cases h
  nameless h := absurd h ht.named

/-- A lock call that nothing cancels fails closed, on every backend that answers its questions,
whatever the answers are. -/
theorem Run.lock_fails_closed {b : Backend σ} (hb : b.Answers) {fired : Bool}
    (hu : b.Undisturbed t fired) (ho : t.operation = .lock t.machine) (s : σ) :
    ∃ a, (complete b t fired s).call.outcome? = some (.answered a) ∧
      FailsClosed t (complete b t fired s).exchanges a := by
  obtain ⟨o, hend, hp⟩ := complete_path hb hu s
  generalize (complete b t fired s).exchanges = xs at hp
  by_cases hm : t.machine = ""
  · obtain ⟨rfl, hend'⟩ := hp.of_ended_start (Task.start_nameless (hm ▸ ho))
    exact ⟨false, hend.trans (congrArg some (Stage.ended.inj hend')), .of_nameless⟩
  · have ht : t.Locks := ⟨ho, hm⟩
    rcases hp.asked ht with ha | ⟨a, ha, hc⟩
    · cases ha
    · cases ha
      exact ⟨a, hend, .of_path ht hp hc⟩

/-- A backend without a record, which then has one of the machine `a` when one is created, says
that `a` is gone, and deletes nothing. -/
def fickle : Backend Nat := fun q n =>
  match q with
  | .read k =>
    (⟨some (if n = 0 then .error (.notFound k)
      else .ok (.naming "a" (.named "ns" "c" none) "c-etcd-lock")), false, []⟩, n + 1)
  | .create r => (⟨some (.error (.alreadyExists r.key)), false, []⟩, n + 1)
  | .delete k _ => (⟨some (.error (.conflict k)), false, []⟩, n + 1)
  | .alive _ _ => (⟨some (.ok false), false, []⟩, n + 1)

theorem fickle_answers : fickle.Answers := by
  intro q s
  cases q <;> exact ⟨_, rfl⟩

theorem lock_fails_closed_fickle :
    fickle.Answers ∧ fickle.Undisturbed (.locking (.named "ns" "c" none) "b") false ∧
      (Run.complete fickle (.locking (.named "ns" "c" none) "b") false 0).exchanges.length = 5 ∧
      FailsClosed (.locking (.named "ns" "c" none) "b")
        (Run.complete fickle (.locking (.named "ns" "c" none) "b") false 0).exchanges false := by
  have hu : fickle.Undisturbed (.locking (.named "ns" "c" none) "b") false := .inl rfl
  obtain ⟨a, ha, hf⟩ := Run.lock_fails_closed fickle_answers hu rfl 0
  have hfalse : (Run.complete fickle (.locking (.named "ns" "c" none) "b") false 0).call.outcome? =
      some (.answered false) := by decide +kernel
  rw [ha] at hfalse
  cases hfalse
  exact ⟨fickle_answers, hu, by decide +kernel, hf⟩

end

end Mutex

end InitLock
