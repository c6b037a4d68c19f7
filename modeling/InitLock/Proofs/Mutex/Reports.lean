import InitLock.Mutex.Script
import InitLock.Proofs.Mutex.Crowd
import InitLock.Proofs.Mutex.Transcript

/-!
# What a call logs of failures

All that goes wrong in a lock or unlock call comes to the answer false, so only
the log tells it apart. A failure is an error that the call does not expect, or
what is wrong with a record that a lock call judges (`Task.failure?`). Whatever
is answered, and wherever the call is cancelled, a call that meets a failure
logs one line at the level of errors, with that failure's text, and answers
false; one that meets none logs no such line (`Run.failures_reported`).
-/

namespace InitLock.Mutex

open Log (Line)

variable {σ : Type}

/-! ## Failures and lines -/

/-- The text of the failure in an exchange. That there is no record to read or to delete, that
another was created first and that another is there by now are no failures. -/
def Task.failure? (t : Task) : Exchange → Option String
  | ⟨.read _, some (.ok r)⟩ =>
    match t.operation, r.holder with
    | .lock _, .error m => some m.toError.message
    | _, _ => none
  | ⟨.read _, some (.error (.notFound _))⟩ => none
  | ⟨.read _, some (.error e)⟩ => some e.message
  | ⟨.create _, some (.error (.alreadyExists _))⟩ => none
  | ⟨.create _, some (.error e)⟩ => some e.message
  | ⟨.delete _ _, some (.error (.notFound _))⟩ => none
  | ⟨.delete _ _, some (.error (.conflict _))⟩ => none
  | ⟨.delete _ _, some (.error e)⟩ => some e.message
  | ⟨.alive _ _, some (.error e)⟩ => some e.message
  | _ => none

def Entry.ownLine? : Entry → Option Line
  | own e => some e.line
  | backend _ => none

def Run.lines (r : Run σ) : List Line := r.entries.filterMap Entry.ownLine?

def errorsOf (ls : List Line) : List Line := ls.filter fun l => l.level = .error

def errorField (l : Line) : Option String := l.fields.lookup "error"

def cancelText : String := "Lock operation cancelled"

/-- What the log of a run of the task says of failures. -/
structure Reports (t : Task) (r : Run σ) : Prop where
  /-- The call has come to its end, or waits for an answer that never comes. -/
  closed : r.call.isOpen = false
  nameless (h : t.operation = .lock "") :
    ∃ l, errorsOf r.lines = [l] ∧ errorField l = none ∧ r.call.result? = some (.ok false)
  failed {x : Exchange} {text : String} (hx : x ∈ r.exchanges) (h : t.failure? x = some text) :
    ∃ l, errorsOf r.lines = [l] ∧ errorField l = some text ∧ r.call.result? = some (.ok false)
  silent (hn : t.operation ≠ .lock "") (h : ∀ x ∈ r.exchanges, t.failure? x = none) :
    errorsOf r.lines = []
  cancelled {c : Cancelled} (h : r.call.result? = some (.error c)) :
    errorsOf r.lines = [] ∧
      ∃ ls, r.lines = ls ++ [⟨.warn, cancelText, [("operation", t.operation.name)]⟩] ∧
        ∀ l ∈ ls, l.text ≠ cancelText

section
variable {ls ls' : List Line} {es : List Event}

theorem errorsOf_append : errorsOf (ls ++ ls') = errorsOf ls ++ errorsOf ls' :=
  List.filter_append ..

theorem filterMap_own_line (es : List Event) :
    (es.map Entry.own).filterMap Entry.ownLine? = es.map Event.line := by
  rw [List.filterMap_map, ← List.filterMap_eq_map]
  rfl

theorem filterMap_backend_line (ls : List Line) :
    (ls.map Entry.backend).filterMap Entry.ownLine? = [] := by
  rw [List.filterMap_map, List.filterMap_eq_nil_iff]
  exact fun _ _ => rfl

end

/-! ## One exchange -/

section
variable {t : Task} {stage stage' : Stage} {x : Exchange} {es : List Event}

/-- What one exchange adds to the log: an error line for a failure, which ends the call, and no
error line otherwise. -/
inductive Task.Accounts (t : Task) (x : Exchange) (es : List Event) (stage' : Stage) : Prop
  | quiet (hx : t.failure? x = none) (hes : errorsOf (es.map Event.line) = [])
  | failed {text : String} {l : Line} (hx : t.failure? x = some text)
    (hes : errorsOf (es.map Event.line) = [l]) (hl : errorField l = some text)
    (hs : stage' = answer false)

theorem Task.failure?_read {k : Key} {e : StoreError} (h : ∀ k, e ≠ .notFound k) :
    t.failure? ⟨.read k, some (.error e)⟩ = some e.message := by
  cases e with
  | notFound k => exact absurd rfl (h k)
  | alreadyExists | conflict | other => rfl

theorem Task.failure?_create {r : Record} {e : StoreError} (h : ∀ k, e ≠ .alreadyExists k) :
    t.failure? ⟨.create r, some (.error e)⟩ = some e.message := by
  cases e with
  | alreadyExists k => exact absurd rfl (h k)
  | notFound | conflict | other => rfl

theorem Task.failure?_record {k : Key} {r : Record} {holder : String} (h : r.holder = .ok holder) :
    t.failure? ⟨.read k, some (.ok r)⟩ = none := by
  cases ho : t.operation <;> simp only [failure?, h, ho]

theorem Task.failure?_malformed {k : Key} {r : Record} {m : Record.Malformed}
    (ho : t.operation = .lock t.machine) (h : r.holder = .error m) :
    t.failure? ⟨.read k, some (.ok r)⟩ = some m.toError.message := by
  simp only [failure?, ho, h]

theorem Task.Judged.accounts {k : Key} {r : Record} (h : Judged t.machine r es stage')
    (ho : t.operation = .lock t.machine) : t.Accounts ⟨.read k, some (.ok r)⟩ es stage' := by
  cases h with
  | malformed hm => exact .failed (failure?_malformed ho hm) rfl rfl rfl
  | held hr => exact .quiet (failure?_record hr) rfl
  | other hr => exact .quiet (failure?_record hr) rfl

theorem Task.accounts_removed {k : Key} {uid : Option String} {a : Except StoreError Unit}
    (hd : (deleted a).2 = true) : t.Accounts ⟨.delete k uid, some a⟩ [(deleted a).1] stage' := by
  cases a with
  | ok => exact .quiet rfl rfl
  | error e =>
    cases e with
    | notFound => exact .quiet rfl rfl
    | alreadyExists | conflict | other => cases hd

theorem Task.accounts_kept {k : Key} {uid : Option String} {a : Except StoreError Unit}
    {gone : Option String} (hd : (deleted a).2 = false) :
    t.Accounts ⟨.delete k uid, some a⟩ ((deleted a).1 :: (gone.map Event.staleKept).toList)
      (answer false) := by
  cases a with
  | ok => cases hd
  | error e =>
    cases e with
    | notFound => cases hd
    | conflict => cases gone <;> exact .quiet rfl rfl
    | alreadyExists | other => cases gone <;> exact .failed rfl rfl rfl rfl

/-- An exchange of a lock or unlock call is accounted for in its log. -/
theorem Task.Leads.accounts (h : t.Leads stage x es stage') (hf : t.Fits stage)
    (ho : t.operation ≠ .inspect) : t.Accounts x es stage' := by
  cases h with
  | lockRead hl hj => exact hj.accounts hl
  | reread hj => exact hj.accounts (Locks.operation hf)
  | unlockRead hu => exact .quiet (by simp only [failure?, hu]) rfl
  | lockUnread _ he | unlockUnread _ he | unreread he =>
    exact .failed (failure?_read he) rfl rfl rfl
  | uncreated he => exact .failed (failure?_create he) rfl rfl rfl
  | unchecked => exact .failed rfl rfl rfl rfl
  | lockVacant | unlockVacant | created | outrun | winnerGone | alive | gone =>
    exact .quiet rfl rfl
  | removed hd => exact accounts_removed hd
  | kept hd => exact accounts_kept hd
  | observedHeld hi | observedMalformed hi | observedUnlocked hi | unobserved hi =>
    exact absurd hi ho

theorem Event.text_ne_cancelText {e : Event} (h : ∀ op, e ≠ .cancelled op) :
    e.line.text ≠ cancelText := by
  cases e with
  | cancelled op => exact absurd rfl (h op)
  | opened op => cases op <;> simp [Event.line, Event.spanText, cancelText]
  | _ => simp [Event.line, cancelText]

theorem text_ne_cancelText_of_mem (h : ∀ e ∈ es, ∀ op, e ≠ .cancelled op) :
    ∀ l ∈ es.map Event.line, l.text ≠ cancelText := by
  intro l hl
  obtain ⟨e, he, rfl⟩ := List.mem_map.1 hl
  exact Event.text_ne_cancelText (h e he)

theorem Task.deleted_ne_cancelled (a : Except StoreError Unit) (op : Operation) :
    (deleted a).1 ≠ .cancelled op := by
  unfold deleted
  split <;> simp

/-- An exchange does not cancel a call, and none of its events says so. -/
theorem Task.Leads.uncancelled (h : t.Leads stage x es stage') :
    stage' ≠ .ended .cancelled ∧ ∀ e ∈ es, ∀ op, e ≠ .cancelled op := by
  cases h with
  | lockRead _ hj | reread hj => cases hj <;> exact ⟨nofun, by simp⟩
  | removed => exact ⟨nofun, by simpa using deleted_ne_cancelled _⟩
  | @kept _ gone =>
    refine ⟨nofun, ?_⟩
    cases gone <;> simp [deleted_ne_cancelled]
  | _ => exact ⟨nofun, by simp⟩

end

/-! ## One turn -/

/-- How a turn takes a call on: what it has exchanged, what it reports, and the stage it comes
to. -/
inductive Task.Proceeds (t : Task) : Stage → List Exchange → List Event → Stage → Prop
  | rests {stage : Stage} (h : Call.isOpen ⟨t, stage⟩ = false) : Proceeds t stage [] [] stage
  | answered {stage stage' : Stage} {x : Exchange} {es : List Event}
    (hl : t.Leads stage x es stage') : Proceeds t stage [x] es stage'
  | cancelled {stage : Stage} {xs : List Exchange} (h : Call.isOpen ⟨t, stage⟩ = true)
    (hxs : ∀ x ∈ xs, x.answer = none) :
    Proceeds t stage xs [.cancelled t.operation] (.ended .cancelled)
  | stalls {stage : Stage} (q : Question) (h : Call.isOpen ⟨t, stage⟩ = true) :
    Proceeds t stage [⟨q, none⟩] [] .stalled

/-- What one run has more than another of the same call. -/
structure Run.Adds (r r' : Run σ) (xs : List Exchange) (es : List Event) : Prop where
  task : r'.call.task = r.call.task
  exchanges : r'.exchanges = r.exchanges ++ xs
  lines : r'.lines = r.lines ++ es.map Event.line
  proceeds : r.call.task.Proceeds r.call.stage xs es r'.call.stage

section
variable {t : Task} {stage stage' : Stage} {xs : List Exchange} {es : List Event}

theorem Run.lines_goTo (r : Run σ) (es : List Event) (stage : Stage) :
    (r.goTo es stage).lines = r.lines ++ es.map Event.line := by
  rw [lines, goTo, List.filterMap_append, filterMap_own_line]
  rfl

/-- A turn goes on from where the call stood. -/
theorem Run.adds_turn (b : Backend σ) (r : Run σ) : ∃ xs es, r.Adds (r.turn b) xs es := by
  by_cases hopen : r.call.isOpen = true
  · obtain ⟨q, resume, hq⟩ := next_of_isOpen hopen
    by_cases hn : r.noticed = true
    · refine ⟨[], [.cancelled r.call.task.operation], ?_⟩
      rw [turn_noticed hopen hn]
      exact ⟨rfl, (List.append_nil _).symm, r.lines_goTo _ _,
        .cancelled hopen (List.forall_mem_nil _)⟩
    have hlines (entries : List Entry) (ls : List Line) :
        (entries ++ ls.map Entry.backend).filterMap Entry.ownLine? =
          entries.filterMap Entry.ownLine? := by
      rw [List.filterMap_append, filterMap_backend_line, List.append_nil]
    unfold turn
    rw [hq]
    simp only [hn, Bool.false_eq_true, ↓reduceIte]
    cases ha : (b q r.state).1.answer with
    | some a =>
      refine ⟨[⟨q, some a⟩], (resume a).1, rfl, rfl, ?_, .answered (Task.leads hq a)⟩
      rw [lines_goTo, lines, hlines]
      rfl
    | none =>
      dsimp only
      split
      · refine ⟨[⟨q, none⟩], [.cancelled r.call.task.operation], rfl, rfl, ?_,
          .cancelled hopen (by simp)⟩
        rw [cancel, lines_goTo, lines, hlines]
        rfl
      · refine ⟨[⟨q, none⟩], [], rfl, rfl, ?_, .stalls q hopen⟩
        rw [lines_goTo, lines, hlines]
        rfl
  · refine ⟨[], [], ?_⟩
    have hturn : r.turn b = r := by
      unfold turn
      split
      · rfl
      · rfl
      · next q resume hq => exact absurd (Call.isOpen_iff.2 ⟨q, resume, hq⟩) hopen
    rw [hturn]
    exact ⟨rfl, (List.append_nil _).symm, (List.append_nil _).symm,
      .rests (Bool.eq_false_iff.2 hopen)⟩

theorem Stage.remaining_of_closed (h : Call.isOpen ⟨t, stage⟩ = false) : stage.remaining = 0 := by
  cases stage with
  | stalled | ended => rfl
  | reading | creating | rereading | checking | deleting => cases h

theorem Stage.closed_of_remaining (h : stage.remaining = 0) : Call.isOpen ⟨t, stage⟩ = false := by
  cases stage with
  | stalled | ended => rfl
  | reading | creating | rereading | checking | deleting => cases h

/-- A turn leaves fewer questions to ask, if any was left. -/
theorem Task.Proceeds.remaining_le (h : t.Proceeds stage xs es stage') :
    stage'.remaining ≤ stage.remaining - 1 := by
  cases h with
  | rests h => simp [Stage.remaining_of_closed h]
  | answered hl => exact Nat.le_sub_one_of_lt hl.remaining_lt
  | cancelled | stalls => exact Nat.zero_le _

end

/-! ## A whole run -/

/-- What went wrong in a call, as its log is to give it: that the machine has no name, which no
text tells, and the failures in its exchanges. -/
def Task.failures (t : Task) (xs : List Exchange) : List (Option String) :=
  (if t.operation = .lock "" then [none] else []) ++ (xs.filterMap t.failure?).map some

/-- The log of a call that has come to a stage by these exchanges gives its failures, of which
there is at most one, and says at its end, and only there, that the call was cancelled. -/
structure Task.Told (t : Task) (xs : List Exchange) (ls : List Line) (stage : Stage) : Prop where
  fits (h : Call.isOpen ⟨t, stage⟩ = true) : t.Fits stage
  failures : (errorsOf ls).map errorField = t.failures xs
  ended : errorsOf ls = [] ∨ (∃ l, errorsOf ls = [l]) ∧ stage = answer false
  cancelled (h : stage = .ended .cancelled) :
    ∃ ls', ls = ls' ++ [(Event.cancelled t.operation).line] ∧ ∀ l ∈ ls', l.text ≠ cancelText
  uncancelled (h : stage ≠ .ended .cancelled) : ∀ l ∈ ls, l.text ≠ cancelText

section
variable {t : Task} {stage stage' : Stage} {xs xs' : List Exchange} {es : List Event}
  {ls : List Line}

theorem Task.failures_append : t.failures (xs ++ xs') =
    t.failures xs ++ (xs'.filterMap t.failure?).map some := by
  rw [failures, failures, List.filterMap_append, List.map_append, List.append_assoc]

theorem Task.failures_unanswered (h : ∀ x ∈ xs, x.answer = none) :
    xs.filterMap t.failure? = [] := by
  rw [List.filterMap_eq_nil_iff]
  intro x hx
  obtain ⟨q, a⟩ := x
  obtain rfl : a = none := h _ hx
  cases q <;> rfl

theorem Task.Told.errorsOf_of_open (h : t.Told xs ls stage)
    (hopen : Call.isOpen ⟨t, stage⟩ = true) : errorsOf ls = [] := by
  rcases h.ended with he | ⟨-, rfl⟩
  · exact he
  · cases hopen

theorem Task.Told.append_uncancelled (h : t.Told xs ls stage)
    (hopen : Call.isOpen ⟨t, stage⟩ = true) (hes : ∀ e ∈ es, ∀ op, e ≠ .cancelled op) :
    ∀ l ∈ ls ++ es.map Event.line, l.text ≠ cancelText := by
  intro l hl
  rcases List.mem_append.1 hl with hl | hl
  · exact h.uncancelled (fun hs => by rw [hs] at hopen; cases hopen) l hl
  · exact text_ne_cancelText_of_mem hes l hl

/-- A turn of a lock or unlock call keeps its log true. -/
theorem Task.Told.proceed (h : t.Told xs ls stage) (ho : t.operation ≠ .inspect)
    (hp : t.Proceeds stage xs' es stage') :
    t.Told (xs ++ xs') (ls ++ es.map Event.line) stage' := by
  cases hp with
  | rests => simpa only [List.append_nil, List.map_nil] using h
  | answered hl =>
    have hopen := hl.isOpen
    have hnil := h.errorsOf_of_open hopen
    have hfailures : t.failures xs = [] := by rw [← h.failures, hnil, List.map_nil]
    have hun := hl.uncancelled
    refine ⟨fun _ => hl.fits (h.fits hopen), ?_, ?_, fun hs => absurd hs hun.1,
      fun _ => h.append_uncancelled hopen hun.2⟩
    · rw [errorsOf_append, hnil, failures_append, hfailures, List.nil_append, List.nil_append]
      cases hl.accounts (h.fits hopen) ho with
      | quiet hx hes => rw [hes, List.filterMap_cons_none hx]; rfl
      | failed hx hes hl => rw [hes, List.filterMap_cons_some hx, List.map_singleton, hl]; rfl
    · rw [errorsOf_append, hnil, List.nil_append]
      cases hl.accounts (h.fits hopen) ho with
      | quiet _ hes => exact .inl hes
      | failed _ hes _ hs => exact .inr ⟨⟨_, hes⟩, hs⟩
  | cancelled hopen hxs =>
    have hnil := h.errorsOf_of_open hopen
    have hlines : errorsOf (ls ++ [Event.cancelled t.operation].map Event.line) = [] := by
      rw [errorsOf_append, hnil]
      rfl
    refine ⟨nofun, ?_, .inl hlines, fun _ => ⟨ls, rfl, ?_⟩, fun hs => absurd rfl hs⟩
    · rw [hlines, failures_append, failures_unanswered hxs, ← h.failures, hnil]
      rfl
    · exact h.uncancelled fun hs => by rw [hs] at hopen; cases hopen
  | stalls q hopen =>
    refine ⟨nofun, ?_, ?_, nofun, fun _ => h.append_uncancelled hopen (List.forall_mem_nil _)⟩
    · rw [failures_append, failures_unanswered (by simp), List.map_nil, List.append_nil,
        List.map_nil, List.append_nil]
      exact h.failures
    · rw [List.map_nil, List.append_nil]
      exact .inl (h.errorsOf_of_open hopen)

theorem Task.opening_quiet (t : Task) :
    errorsOf (t.opening.map Event.line) = [] ∧ ∀ e ∈ t.opening, ∀ op, e ≠ .cancelled op := by
  unfold opening
  split
  · exact ⟨rfl, List.forall_mem_nil _⟩
  · exact ⟨rfl, by simp⟩

/-- The log of a call as it begins. -/
theorem Task.told_start : t.Told [] (t.start.1.map Event.line) t.start.2 := by
  obtain ⟨hquiet, hopening⟩ := t.opening_quiet
  have huns {es : List Event} (h : ∀ e ∈ es, ∀ op, e ≠ .cancelled op) :
      ∀ l ∈ (t.opening ++ es).map Event.line, l.text ≠ cancelText :=
    text_ne_cancelText_of_mem fun e he => (List.mem_append.1 he).elim (hopening e) (h e)
  have herrors (es : List Event) :
      errorsOf ((t.opening ++ es).map Event.line) = errorsOf (es.map Event.line) := by
    rw [List.map_append, errorsOf_append, hquiet, List.nil_append]
  by_cases hn : t.operation = .lock ""
  · have hstart : t.start = (t.opening ++ [.nameless], answer false) := by
      simp only [start, hn, ↓reduceIte]
    rw [hstart]
    refine ⟨nofun, ?_, .inr ⟨⟨_, herrors _⟩, rfl⟩, nofun, fun _ => huns (by simp)⟩
    rw [herrors, failures, if_pos hn]
    rfl
  · have hstart : ∃ es, t.start.1 = t.opening ++ es ∧ errorsOf (es.map Event.line) = [] ∧
        ∀ e ∈ es, ∀ op, e ≠ .cancelled op := by
      unfold start
      split
      · next machine hm =>
        rw [if_neg fun he : machine = "" => hn (he ▸ hm)]
        exact ⟨[], (List.append_nil _).symm, rfl, List.forall_mem_nil _⟩
      · exact ⟨[.checking], rfl, rfl, by simp⟩
      · exact ⟨[], (List.append_nil _).symm, rfl, List.forall_mem_nil _⟩
    obtain ⟨es, hes, hnil, hcancel⟩ := hstart
    rw [hes, start_eq_reading hn]
    refine ⟨fun _ => hn, ?_, .inl ((herrors es).trans hnil), nofun, fun _ => huns hcancel⟩
    rw [herrors, hnil, failures, if_neg hn]
    rfl

/-- The log of a run of the task is true. -/
structure Run.Told (t : Task) (r : Run σ) : Prop where
  task : r.call.task = t
  log : t.Told r.exchanges r.lines r.call.stage

theorem Run.told_turns (ho : t.operation ≠ .inspect) (b : Backend σ) (n : Nat) {r : Run σ}
    (h : r.Told t) :
    (r.turns b n).Told t ∧ (r.turns b n).call.stage.remaining ≤ r.call.stage.remaining - n := by
  induction n generalizing r with
  | zero => exact ⟨h, Nat.le_refl _⟩
  | succ n ih =>
    obtain ⟨rfl, hlog⟩ := h
    obtain ⟨xs, es, hadds⟩ := adds_turn b r
    have hturn : (r.turn b).Told r.call.task :=
      ⟨hadds.task, by rw [hadds.exchanges, hadds.lines]; exact hlog.proceed ho hadds.proceeds⟩
    obtain ⟨hturns, hle⟩ := ih hturn
    have := hadds.proceeds.remaining_le
    refine ⟨hturns, ?_⟩
    rw [turns]
    omega

theorem Run.told_complete (ho : t.operation ≠ .inspect) (b : Backend σ) (fired : Bool) (s : σ) :
    (complete b t fired s).Told t ∧ (complete b t fired s).call.isOpen = false := by
  have hbegin : (begin t fired s).Told t := by
    refine ⟨rfl, ?_⟩
    rw [lines, begin, filterMap_own_line]
    exact Task.told_start
  obtain ⟨htold, hle⟩ := told_turns ho b 5 hbegin
  have hstart : t.start.2.remaining ≤ 5 := by
    rcases t.start_eq with h | h <;> rw [h] <;> decide
  have hzero : (complete b t fired s).call.stage.remaining = 0 :=
    Nat.eq_zero_of_le_zero (Nat.le_trans hle (Nat.le_of_eq (Nat.sub_eq_zero_of_le hstart)))
  exact ⟨htold, Stage.closed_of_remaining hzero⟩

theorem Call.stage_of_cancelled {call : Call} {c : Cancelled}
    (h : call.result? = some (.error c)) : call.stage = .ended .cancelled := by
  obtain ⟨t, stage⟩ := call
  cases stage with
  | ended o => cases o <;> first | rfl | cases h
  | reading | creating | rereading | checking | deleting | stalled => cases h

/-- A true log has one line for a failure, and the call has then answered false. -/
theorem Task.Told.of_failure (h : t.Told xs ls stage) {f : Option String}
    (hf : f ∈ t.failures xs) :
    ∃ l, errorsOf ls = [l] ∧ errorField l = f ∧ stage = answer false := by
  have hfailures := h.failures
  rcases h.ended with he | ⟨⟨l, he⟩, hs⟩
  · rw [he] at hfailures
    rw [← hfailures] at hf
    cases hf
  · rw [he] at hfailures
    rw [← hfailures] at hf
    exact ⟨l, he, (List.mem_singleton.1 hf).symm, hs⟩

end

section
variable {t : Task}

/-- The log of a lock or unlock call says what went wrong in it, and nothing else, whatever is
answered and whenever the call is cancelled. -/
theorem Run.failures_reported (ho : t.operation ≠ .inspect) (b : Backend σ) (fired : Bool)
    (s : σ) : Reports t (complete b t fired s) := by
  obtain ⟨⟨htask, hlog⟩, hclosed⟩ := told_complete ho b fired s
  generalize complete b t fired s = r at htask hlog hclosed
  have hfalse (hs : r.call.stage = Task.answer false) : r.call.result? = some (.ok false) := by
    rw [Call.result?, Call.outcome?, hs]
    rfl
  refine ⟨hclosed, fun hn => ?_, fun {x text} hx hf => ?_, fun hn hx => ?_, fun {c} hc => ?_⟩
  · obtain ⟨l, hl, hfield, hs⟩ := hlog.of_failure (f := none) (by simp [Task.failures, hn])
    exact ⟨l, hl, hfield, hfalse hs⟩
  · have hmem : some text ∈ t.failures r.exchanges :=
      List.mem_append_right _ (List.mem_map_of_mem (List.mem_filterMap.2 ⟨x, hx, hf⟩))
    obtain ⟨l, hl, hfield, hs⟩ := hlog.of_failure hmem
    exact ⟨l, hl, hfield, hfalse hs⟩
  · have hnone : t.failures r.exchanges = [] := by
      rw [Task.failures, if_neg hn, List.filterMap_eq_nil_iff.2 hx]
      rfl
    exact List.map_eq_nil_iff.1 (hlog.failures.trans hnone)
  · have hs := Call.stage_of_cancelled hc
    refine ⟨?_, hlog.cancelled hs⟩
    rcases hlog.ended with he | ⟨-, he⟩
    · exact he
    · rw [hs] at he
      cases he

/-- A lock call for the machine `b` that can be cancelled. -/
def cancellable : Task := ⟨.lock "b", .named "ns" "c" none, .default, true⟩

/-- Answers that name the machine `a`, then say this of it, and let no delete through. -/
def stuck (alive : Prepared (Except Error Bool)) : Script where
  reads := [⟨some (.ok (.naming "a" (.named "ns" "c" none) "c-etcd-lock")), false⟩]
  creates := []
  deletes := [⟨some (.error (.other (.internal "timeout" Error.unknownContext))), false⟩]
  alives := [alive]

theorem failures_reported_stuck :
    cancellable.operation ≠ .inspect ∧
      errorsOf (Run.complete Script.backend cancellable false
        (stuck ⟨some (.ok false), false⟩)).lines =
          [⟨.error, "Error deleting the lock record",
            [("error", "internal error [unknown]: timeout")]⟩] ∧
      Reports cancellable (Run.complete Script.backend cancellable false
        (stuck ⟨some (.ok false), false⟩)) ∧
      (Run.complete Script.backend cancellable false (stuck ⟨none, true⟩)).call.result? =
        some (.error ⟨"lock", "ns", "c"⟩) ∧
      Reports cancellable (Run.complete Script.backend cancellable false (stuck ⟨none, true⟩)) := by
  have ho : cancellable.operation ≠ .inspect := by decide
  exact ⟨ho, by decide +kernel, Run.failures_reported ho _ _ _, by decide +kernel,
    Run.failures_reported ho _ _ _⟩

end

end InitLock.Mutex
