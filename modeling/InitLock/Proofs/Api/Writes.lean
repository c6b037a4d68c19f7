import InitLock.Proofs.Api.Traffic

/-!
# When a call writes

What lies behind each request with which a call changes something on the server,
whatever the server answers. The transcript of the call says which exchanges
come before it (`Task.Asked`), and the trips say which answers of the server
made them.
-/

namespace InitLock.Api

open Mutex

variable {σ : Type} {server : Server σ} {manager : String}

/-! ## Visits of a kind -/

namespace Visit

/-- The request for a record was answered with a ConfigMap. -/
def Reads (server : Server σ) (v : Visit σ) (k : Key) (c : ConfigMap) : Prop :=
  v.question = .read k ∧ ∃ q, Records.readRequest k = .ok q ∧ v.sent = [q] ∧
    Server.read server ConfigMap.reader q v.before.link.state = .ok c

/-- The request for a record was answered with the code 404. -/
def Misses (server : Server σ) (v : Visit σ) (k : Key) : Prop :=
  v.question = .read k ∧ ∃ q, Records.readRequest k = .ok q ∧ v.sent = [q] ∧
    Server.Misses server q v.before.link.state

/-- The request to create a record was answered with a ConfigMap. -/
def Creates (server : Server σ) (manager : String) (v : Visit σ) (r : Record) : Prop :=
  v.question = .create r ∧ ∃ q c, Records.createRequest manager r = .ok q ∧ v.sent = [q] ∧
    Server.read server ConfigMap.reader q v.before.link.state = .ok c

/-- The request to create a record was refused because there is one. -/
def Loses (server : Server σ) (manager : String) (v : Visit σ) (r : Record) : Prop :=
  v.question = .create r ∧ ∃ q, Records.createRequest manager r = .ok q ∧ v.sent = [q] ∧
    Server.Refuses server q v.before.link.state 409 "AlreadyExists"

/-- The machine was missed, and discovery has succeeded since. -/
def Confirms (server : Server σ) (v : Visit σ) (ns machine : String) : Prop :=
  v.question = .alive ns machine ∧ ∃ q ∈ v.sent, Machines.Confirmed server ns machine v.before q

end Visit

/-- The visit is the last one that asks for a record. -/
def LastRead (vs : List (Visit σ)) (v : Visit σ) : Prop :=
  ∃ past rest, vs = past ++ v :: rest ∧ ∀ w ∈ rest, ∀ k, w.question ≠ .read k

section
variable {v : Visit σ} {k k' : Key} {r : Record} {ns machine : String}

theorem Visit.reads (hv : v.Made server manager)
    (he : v.exchange = ⟨.read k, some (.ok r)⟩) : ∃ c, v.Reads server k c ∧ r = c.toRecord k := by
  obtain ⟨s, q, a, qs⟩ := v
  cases he
  cases hv with
  | read hq hc => exact ⟨_, ⟨rfl, _, hq, rfl, hc⟩, rfl⟩

theorem Visit.misses (hv : v.Made server manager)
    (he : v.exchange = ⟨.read k, some (.error (.notFound k'))⟩) : v.Misses server k := by
  obtain ⟨s, q, a, qs⟩ := v
  cases he
  cases hv with
  | missed hq hm => exact ⟨rfl, _, hq, rfl, hm⟩

theorem Visit.creates (hv : v.Made server manager)
    (he : v.exchange = ⟨.create r, some (.ok ())⟩) : v.Creates server manager r := by
  obtain ⟨s, q, a, qs⟩ := v
  cases he
  cases hv with
  | created hq hc => exact ⟨rfl, _, _, hq, rfl, hc⟩

theorem Visit.loses (hv : v.Made server manager)
    (he : v.exchange = ⟨.create r, some (.error (.alreadyExists k))⟩) :
    v.Loses server manager r := by
  obtain ⟨s, q, a, qs⟩ := v
  cases he
  cases hv with
  | taken hq hr => exact ⟨rfl, _, hq, rfl, hr⟩

theorem Visit.exchange_of_reads {c : ConfigMap}
    (hv : v.Made server manager) (h : v.Reads server k c) :
    v.exchange = ⟨.read k, some (.ok (c.toRecord k))⟩ := by
  obtain ⟨s, q, a, qs⟩ := v
  obtain ⟨rfl, q, hq, hsent, hc⟩ := h
  cases hv with
  | unread => cases hsent
  | read _ hc' =>
    cases hsent
    cases hc.symm.trans hc'
    rfl
  | missed _ hm =>
    cases hsent
    obtain ⟨f, hf, -⟩ := Server.misses_iff.1 hm
    cases hc.symm.trans hf
  | readFailed _ hf =>
    cases hsent
    cases hc.symm.trans hf

theorem Visit.exchange_of_creates (hv : v.Made server manager)
    (h : v.Creates server manager r) : v.exchange = ⟨.create r, some (.ok ())⟩ := by
  obtain ⟨s, q, a, qs⟩ := v
  obtain ⟨rfl, q, c, hq, hsent, hc⟩ := h
  cases hv with
  | uncreated => cases hsent
  | created => rfl
  | taken _ hr =>
    cases hsent
    obtain ⟨refusal, hr, -⟩ := hr
    unfold Server.read at hc
    dsimp only at hc
    rw [hr] at hc
    cases hc
  | createFailed _ hf =>
    cases hsent
    cases hc.symm.trans hf

theorem Visit.confirms (hv : v.Made server manager)
    (he : v.exchange = ⟨.alive ns machine, some (.ok false)⟩) : v.Confirms server ns machine := by
  obtain ⟨s, q, a, qs⟩ := v
  cases he
  cases hv with
  | asked _ h => exact ⟨rfl, h rfl⟩

/-- A delete on which a call takes the record for deleted was sent, and was not refused for a
conflict. -/
theorem Visit.deletes {uid : Option String} {a : Except StoreError Unit}
    (hv : v.Made server manager)
    (he : v.exchange = ⟨.delete k uid, some a⟩) (ha : (Task.deleted a).2 = true) :
    v.question = .delete k uid ∧ ∃ q, Records.deleteRequest k uid = .ok q ∧ v.sent = [q] ∧
      ∀ reason, ¬ Server.Refuses server q v.before.link.state 409 reason := by
  obtain ⟨s, question, answer, qs⟩ := v
  cases he
  cases hv with
  | undeleted => cases ha
  | deleted hq htext =>
    refine ⟨rfl, _, hq, rfl, fun reason ⟨refusal, hrefusal, _⟩ => ?_⟩
    cases htext.symm.trans hrefusal
  | @deleteFailed _ _ q f hq hf =>
    refine ⟨rfl, q, hq, rfl, fun reason ⟨refusal, hrefusal, hcode, _⟩ => ?_⟩
    rw [hrefusal] at hf
    cases hf
    cases uid <;> simp [Records.deleteError, hcode, Task.deleted] at ha

end

/-! ## Requests that write -/

section
variable {k : Key} {uid : Option String} {r : Record} {q : Request} {qs : List Request}
  {s : Remote σ} {question : Question} {a : question.Answer}

theorem Records.method_of_readRequest (h : Records.readRequest k = .ok q) : q.method = .get :=
  method_of_getRequest h

theorem Records.method_of_createRequest (h : Records.createRequest manager r = .ok q) :
    q.method = .post := by
  unfold Records.createRequest at h
  split at h
  · cases h
  · obtain ⟨uri, -, rfl⟩ := Request.of_to h
    rfl

theorem Records.of_deleteRequest (h : Records.deleteRequest k uid = .ok q) :
    q.method = .delete ∧ q.body = some (Records.deleteBody uid) := by
  unfold Records.deleteRequest member at h
  split at h
  · cases h
  · obtain ⟨uri, -, rfl⟩ := Request.of_to h
    exact ⟨rfl, rfl⟩

theorem Trip.of_post (ht : Trip server manager s question a qs) (hq : q ∈ qs)
    (hm : q.method = .post) :
    ∃ r, question = .create r ∧ Records.createRequest manager r = .ok q ∧ qs = [q] := by
  cases ht with
  | unread | uncreated | undeleted => cases hq
  | read h | missed h | readFailed h =>
    cases List.mem_singleton.1 hq
    rw [Records.method_of_readRequest h] at hm
    cases hm
  | created h | taken h | createFailed h =>
    cases List.mem_singleton.1 hq
    exact ⟨_, rfl, h, rfl⟩
  | deleted h | deleteFailed h =>
    cases List.mem_singleton.1 hq
    rw [(Records.of_deleteRequest h).1] at hm
    cases hm
  | asked hget =>
    rw [hget q hq] at hm
    cases hm

theorem Trip.of_delete (ht : Trip server manager s question a qs) (hq : q ∈ qs)
    (hm : q.method = .delete) :
    ∃ k uid, question = .delete k uid ∧ Records.deleteRequest k uid = .ok q ∧ qs = [q] := by
  cases ht with
  | unread | uncreated | undeleted => cases hq
  | read h | missed h | readFailed h =>
    cases List.mem_singleton.1 hq
    rw [Records.method_of_readRequest h] at hm
    cases hm
  | created h | taken h | createFailed h =>
    cases List.mem_singleton.1 hq
    rw [Records.method_of_createRequest h] at hm
    cases hm
  | deleted h | deleteFailed h =>
    cases List.mem_singleton.1 hq
    exact ⟨_, _, rfl, h, rfl⟩
  | asked hget =>
    rw [hget q hq] at hm
    cases hm

end

/-! ## What comes before a write -/

section
variable {t : Task} {stage stage' : Stage} {x : Exchange} {es : List Mutex.Event} {o : Outcome}
  {vs past rest : List (Visit σ)} {v : Visit σ} {k : Key} {r : Record}

/-- A lock call makes each of its visits at a stage before its end. -/
theorem asked_of_visit (ht : t.Locks) (hp : t.Path (vs.map Visit.exchange) (.ended o))
    (h : vs = past ++ v :: rest) :
    ∃ stage es stage', t.Asked (past.map Visit.exchange) stage ∧
      t.Leads stage v.exchange es stage' := by
  obtain ⟨stage, es, stage', hpast, hl, -⟩ :=
    hp.through (y := v.exchange) (by rw [h, List.map_append, List.map_cons])
  rcases hpast.asked ht with ha | ⟨_, rfl, -⟩
  · exact ⟨stage, es, stage', ha, hl⟩
  · cases hl

theorem missed_of_creating (hvs : ∀ v ∈ vs, v.Made server manager)
    (h : vs = past ++ rest) (ha : t.Asked (past.map Visit.exchange) .creating) :
    ∃ g, past = [g] ∧ g.Misses server t.key := by
  generalize hxs : past.map Visit.exchange = xs at ha
  cases ha with
  | creating k =>
    obtain ⟨g, rfl, hg⟩ := List.map_eq_singleton_iff.1 hxs
    exact ⟨g, rfl, Visit.misses (hvs g (by simp [h])) hg⟩

theorem lost_of_rereading
    (hvs : ∀ v ∈ vs, v.Made server manager)
    (h : vs = past ++ rest) (ha : t.Asked (past.map Visit.exchange) .rereading) :
    ∃ g p, past = [g, p] ∧ g.Misses server t.key ∧ p.Loses server manager t.newRecord := by
  generalize hxs : past.map Visit.exchange = xs at ha
  cases ha with
  | rereading k k' =>
    obtain ⟨g, past', rfl, hg, hxs⟩ := List.map_eq_cons_iff.1 hxs
    obtain ⟨p, rfl, hp⟩ := List.map_eq_singleton_iff.1 hxs
    exact ⟨g, p, rfl, Visit.misses (hvs g (by simp [h])) hg, Visit.loses (hvs p (by simp [h])) hp⟩

theorem confirmed_of_deleting
    (hvs : ∀ v ∈ vs, v.Made server manager)
    (h : vs = past ++ rest) {gone : Option String}
    (ha : t.Asked (past.map Visit.exchange) (.deleting r gone)) :
    ∃ past' g a c holder, past = past' ++ [g, a] ∧ g.Reads server t.key c ∧
      r = c.toRecord t.key ∧ r.holder = .ok holder ∧ holder ≠ t.machine ∧
      a.Confirms server t.lookupNs holder := by
  generalize hxs : past.map Visit.exchange = xs at ha
  cases ha with
  | @deleting ys _ holder _ hr hne =>
    rw [List.append_assoc] at hxs
    obtain ⟨past', last, rfl, -, hlast⟩ := List.map_eq_append_iff.1 hxs
    obtain ⟨g, last', rfl, hg, hlast⟩ := List.map_eq_cons_iff.1 hlast
    obtain ⟨a, rfl, ha⟩ := List.map_eq_singleton_iff.1 hlast
    obtain ⟨c, hc, hrc⟩ := Visit.reads (hvs g (by simp [h])) hg
    exact ⟨past', g, a, c, holder, rfl, hc, hrc, hr, hne, Visit.confirms (hvs a (by simp [h])) ha⟩

end

/-! ## Lock calls -/

/-- What the visits of a lock call that answers `b` say. -/
structure LockTraffic (server : Server σ) (manager : String) (t : Task) (vs : List (Visit σ))
    (b : Bool) : Prop where
  /-- The only POST is for the call's own record, and comes after the request for the record was
  answered with the code 404. -/
  post {past rest : List (Visit σ)} {v : Visit σ} {q : Request} (h : vs = past ++ v :: rest)
    (hq : q ∈ v.sent) (hm : q.method = .post) :
    Records.createRequest manager t.newRecord = .ok q ∧ v.sent = [q] ∧
      ∃ g, past = [g] ∧ g.Misses server t.key
  /-- The record is asked for a second time only after the POST was refused because there is one. -/
  reread {past rest : List (Visit σ)} {v : Visit σ} {k : Key} (h : vs = past ++ v :: rest)
    (hq : v.question = .read k) :
    k = t.key ∧ (past = [] ∨ ∃ g p, past = [g, p] ∧ p.Loses server manager t.newRecord)
  /-- The only DELETE is the last request, of a call that answers false, and comes after a machine
  that the record names was missed and discovery has succeeded since. -/
  delete {past rest : List (Visit σ)} {v : Visit σ} {q : Request} (h : vs = past ++ v :: rest)
    (hq : q ∈ v.sent) (hm : q.method = .delete) :
    v.sent = [q] ∧ rest = [] ∧ b = false ∧
      ∃ past' g a c holder, past = past' ++ [g, a] ∧ g.Reads server t.key c ∧
        (c.toRecord t.key).holder = .ok holder ∧ holder ≠ t.machine ∧
        a.Confirms server t.lookupNs holder
  true_iff : b = true ↔ (∃ v ∈ vs, v.Creates server manager t.newRecord) ∨
    ∃ v c, LastRead vs v ∧ v.Reads server t.key c ∧ (c.toRecord t.key).holder = .ok t.machine
  /-- Any other answer ends the call. -/
  goesOn {past rest : List (Visit σ)} {v : Visit σ} (h : vs = past ++ v :: rest)
    (hrest : rest ≠ []) :
    v.Misses server t.key ∨ v.Loses server manager t.newRecord ∨
      (∃ c holder, v.Reads server t.key c ∧ (c.toRecord t.key).holder = .ok holder ∧
        holder ≠ t.machine) ∨
      ∃ holder, v.Confirms server t.lookupNs holder

section
variable {t : Task} {vs : List (Visit σ)} {b : Bool}

theorem LockTraffic.of_nameless : LockTraffic server manager t [] false where
  post h := by simp at h
  reread h := by simp at h
  delete h := by simp at h
  true_iff := by simp [LastRead]
  goesOn h := by simp at h

/-- The last request for a record tells which record was read last. -/
theorem LastRead.record {v : Visit σ} {r : Record} (h : LastRead vs v)
    (hr : v.exchange.record? = some r) : lastRecord? (vs.map Visit.exchange) = some r := by
  obtain ⟨past, rest, rfl, hrest⟩ := h
  have hnone : (rest.map Visit.exchange).filterMap Exchange.record? = [] := by
    refine List.filterMap_eq_nil_iff.2 fun x hx => ?_
    obtain ⟨w, hw, rfl⟩ := List.mem_map.1 hx
    cases hrec : w.exchange.record? with
    | none => rfl
    | some r =>
      obtain ⟨k, hk⟩ := Exchange.of_record? hrec
      exact absurd (congrArg Exchange.question hk) (hrest w hw k)
  rw [lastRecord?, List.map_append, List.map_cons, List.filterMap_append,
    List.filterMap_cons_some hr, hnone, List.getLast?_append]
  rfl

section
variable {past rest : List (Visit σ)} {v : Visit σ} {q : Request} {k : Key} {o : Outcome}
  (ht : t.Locks) (hvs : ∀ v ∈ vs, v.Made server manager)
include ht hvs

theorem missed_of_post (hp : t.Path (vs.map Visit.exchange) (.ended o))
    (h : vs = past ++ v :: rest) (hq : q ∈ v.sent) (hm : q.method = .post) :
    Records.createRequest manager t.newRecord = .ok q ∧ v.sent = [q] ∧
      ∃ g, past = [g] ∧ g.Misses server t.key := by
  obtain ⟨r, hr, hcreate, hsent⟩ := (hvs v (by simp [h])).of_post hq hm
  obtain ⟨stage, es, stage', ha, hl⟩ := asked_of_visit ht hp h
  obtain ⟨rfl, rfl⟩ := hl.stage_of_create hr
  exact ⟨hcreate, hsent, missed_of_creating hvs h ha⟩

theorem lost_of_reread (hp : t.Path (vs.map Visit.exchange) (.ended o))
    (h : vs = past ++ v :: rest) (hq : v.question = .read k) :
    k = t.key ∧ (past = [] ∨ ∃ g p, past = [g, p] ∧ p.Loses server manager t.newRecord) := by
  obtain ⟨stage, es, stage', ha, hl⟩ := asked_of_visit ht hp h
  obtain ⟨rfl | rfl, rfl⟩ := hl.stage_of_read hq
  · refine ⟨rfl, .inl ?_⟩
    generalize hxs : past.map Visit.exchange = xs at ha
    cases ha
    exact List.map_eq_nil_iff.1 hxs
  · obtain ⟨g, p, hpast, -, hloses⟩ := lost_of_rereading hvs h ha
    exact ⟨rfl, .inr ⟨g, p, hpast, hloses⟩⟩

theorem confirmed_of_delete (hp : t.Path (vs.map Visit.exchange) (Task.answer b))
    (hc : t.Concluded (vs.map Visit.exchange) b) (h : vs = past ++ v :: rest) (hq : q ∈ v.sent)
    (hm : q.method = .delete) :
    v.sent = [q] ∧ rest = [] ∧ b = false ∧
      ∃ past' g a c holder, past = past' ++ [g, a] ∧ g.Reads server t.key c ∧
        (c.toRecord t.key).holder = .ok holder ∧ holder ≠ t.machine ∧
        a.Confirms server t.lookupNs holder := by
  obtain ⟨k, uid, hdelete, -, hsent⟩ := (hvs v (by simp [h])).of_delete hq hm
  obtain ⟨stage, es, stage', ha, hl⟩ := asked_of_visit ht hp h
  have hexchanges : vs.map Visit.exchange =
      past.map Visit.exchange ++ v.exchange :: rest.map Visit.exchange := by
    rw [h, List.map_append, List.map_cons]
  have hfalse : b = false := by
    rcases hc.false_or_unclaimed with hb | hun
    · exact hb
    · have hreclaim := hun v.exchange (by simp [hexchanges])
      rw [show v.exchange.question = .delete k uid from hdelete] at hreclaim
      cases hreclaim
  obtain ⟨s, question, a, qs⟩ := v
  obtain rfl : question = _ := hdelete
  have hlast := hp.nil_of_delete hexchanges
  obtain ⟨r, gone, rfl, -, -⟩ := hl.of_delete
  obtain ⟨past', g, a, c, holder, hpast, hreads, rfl, hr, hne, hconfirms⟩ :=
    confirmed_of_deleting hvs h ha
  exact ⟨hsent, List.map_eq_nil_iff.1 hlast, hfalse, past', g, a, c, holder, hpast, hreads, hr,
    hne, hconfirms⟩

theorem true_iff_of_visits (hc : t.Concluded (vs.map Visit.exchange) b) :
    b = true ↔ (∃ v ∈ vs, v.Creates server manager t.newRecord) ∨
      ∃ v c, LastRead vs v ∧ v.Reads server t.key c ∧
        (c.toRecord t.key).holder = .ok t.machine := by
  constructor
  · rintro rfl
    obtain ⟨past, x, stage, es, hpast, hl, hx⟩ := hc
    obtain ⟨past', last, rfl, -, hlast⟩ := List.map_eq_append_iff.1 hx
    obtain ⟨v, rfl, rfl⟩ := List.map_eq_singleton_iff.1 hlast
    have hv := hvs v (by simp)
    rcases hl.true_of_lock (hpast.fits ht) ht.operation with ⟨r, he, hr⟩ | ⟨-, he⟩
    · obtain ⟨c, hreads, rfl⟩ := Visit.reads hv he
      exact .inr ⟨v, c, ⟨past', [], rfl, by simp⟩, hreads, hr⟩
    · exact .inl ⟨v, by simp, Visit.creates hv he⟩
  · intro h
    refine (hc.true_iff ht).2 (h.imp ?_ ?_)
    · rintro ⟨v, hv, hcreates⟩
      exact ⟨t.newRecord, List.mem_map.2 ⟨v, hv, Visit.exchange_of_creates (hvs v hv) hcreates⟩⟩
    · rintro ⟨v, c, hlast, hreads, hr⟩
      obtain ⟨past, rest, h, -⟩ := id hlast
      refine ⟨c.toRecord t.key, hlast.record ?_, hr⟩
      rw [Visit.exchange_of_reads (hvs v (by simp [h])) hreads]
      rfl

/-- What a call asks next tells how the visit before was answered. -/
theorem answered_of_next (hp : t.Path (vs.map Visit.exchange) (.ended o))
    (h : vs = past ++ v :: rest) (hrest : rest ≠ []) :
    v.Misses server t.key ∨ v.Loses server manager t.newRecord ∨
      (∃ c holder, v.Reads server t.key c ∧ (c.toRecord t.key).holder = .ok holder ∧
        holder ≠ t.machine) ∨
      ∃ holder, v.Confirms server t.lookupNs holder := by
  obtain ⟨w, rest, rfl⟩ := List.exists_cons_of_ne_nil hrest
  have h' : vs = (past ++ [v]) ++ w :: rest := by rw [h, List.append_assoc]; rfl
  obtain ⟨stage, es, stage', ha, -⟩ := asked_of_visit ht hp h'
  have hv := hvs v (by simp [h])
  have hlast : ((past ++ [v]).map Visit.exchange).getLast? = some v.exchange := by
    rw [List.map_append, List.map_singleton, List.getLast?_concat]
  generalize (past ++ [v]).map Visit.exchange = xs at ha hlast
  cases ha with
  | reading => cases hlast
  | creating => exact .inl (Visit.misses hv (Option.some.inj hlast).symm)
  | rereading => exact .inr (.inl (Visit.loses hv (Option.some.inj hlast).symm))
  | checking _ hr hne =>
    rw [List.getLast?_concat] at hlast
    obtain ⟨c, hreads, rfl⟩ := Visit.reads hv (Option.some.inj hlast).symm
    exact .inr (.inr (.inl ⟨c, _, hreads, hr, hne⟩))
  | deleting =>
    rw [List.getLast?_concat] at hlast
    exact .inr (.inr (.inr ⟨_, Visit.confirms hv (Option.some.inj hlast).symm⟩))

theorem LockTraffic.of_visits (hp : t.Path (vs.map Visit.exchange) (Task.answer b))
    (hc : t.Concluded (vs.map Visit.exchange) b) : LockTraffic server manager t vs b where
  post h hq hm := missed_of_post ht hvs hp h hq hm
  reread h hq := lost_of_reread ht hvs hp h hq
  delete h hq hm := confirmed_of_delete ht hvs hp hc h hq hm
  true_iff := true_iff_of_visits ht hvs hc
  goesOn h hrest := answered_of_next ht hvs hp h hrest

end

theorem LockTraffic.of_path {o : Outcome} (ho : t.operation = .lock t.machine)
    (hvs : ∀ v ∈ vs, v.Made server manager)
    (hp : t.Path (vs.map Visit.exchange) (.ended o)) :
    ∃ b, o = .answered b ∧ LockTraffic server manager t vs b := by
  by_cases hm : t.machine = ""
  · obtain ⟨hnil, he⟩ := hp.of_ended_start (Task.start_nameless (hm ▸ ho))
    obtain rfl := List.map_eq_nil_iff.1 hnil
    exact ⟨false, Stage.ended.inj he, .of_nameless⟩
  · have ht : t.Locks := ⟨ho, hm⟩
    rcases hp.asked ht with ha | ⟨b, hb, hc⟩
    · generalize vs.map Visit.exchange = xs at ha
      cases ha
    · obtain rfl := Stage.ended.inj hb
      exact ⟨b, rfl, .of_visits ht hvs hp hc⟩

end

/-- A lock call that nothing cancels fails closed, whatever the server answers: it writes only on
the codes that call for it, and answers true only if its ConfigMap was created or it read one that
names its machine. -/
theorem lock_traffic (server : Server σ) (s : Remote σ) (machine : String) (cluster : Cluster)
    (config : Config) (cancellable : Bool) :
    let t : Task := ⟨.lock machine, cluster, config, cancellable⟩
    let run := Remote.call server t s
    ∃ b vs, run.call.outcome? = some (.answered b) ∧
      Visits server t.config.fieldManager s vs run.state ∧
      run.state.link.sent = s.link.sent ++ vs.flatMap (·.sent) ∧
      LockTraffic server t.config.fieldManager t vs b := by
  intro t run
  obtain ⟨o, vs, hend, hvs, hp⟩ := Remote.call_visits server t s
  obtain ⟨b, rfl, htraffic⟩ := LockTraffic.of_path rfl (fun v hv => hvs.made hv) hp
  exact ⟨b, vs, hend, hvs, hvs.sent_eq, htraffic⟩

/-! ## What a delete is aimed at -/

theorem exists_lastRead {t : Task} {past : List (Visit σ)} {r : Record} {gone : Option String}
    (hvs : ∀ v ∈ past, v.Made server manager)
    (hp : t.Path (past.map Visit.exchange) (.deleting r gone)) :
    ∃ g c, LastRead past g ∧ g.Reads server t.key c ∧ r = c.toRecord t.key := by
  obtain ⟨-, hxs⟩ | ⟨ys, holder, -, hxs⟩ := hp.of_deleting
  · obtain ⟨g, rfl, hg⟩ := List.map_eq_singleton_iff.1 hxs
    obtain ⟨c, hc, hr⟩ := Visit.reads (hvs g (by simp)) hg
    exact ⟨g, c, ⟨[], [], rfl, by simp⟩, hc, hr⟩
  · obtain ⟨past, last, rfl, -, hlast⟩ := List.map_eq_append_iff.1 hxs
    obtain ⟨g, last, rfl, hg, hlast⟩ := List.map_eq_cons_iff.1 hlast
    obtain ⟨a, rfl, ha⟩ := List.map_eq_singleton_iff.1 hlast
    obtain ⟨c, hc, hr⟩ := Visit.reads (hvs g (by simp)) hg
    refine ⟨g, c, ⟨past, [a], rfl, fun w hw k => ?_⟩, hc, hr⟩
    obtain rfl := List.mem_singleton.1 hw
    rw [show w.question = _ from congrArg Exchange.question ha]
    exact nofun

/-- Which DELETE follows upon the ConfigMap `c` that the visit `g` read. -/
structure DeleteTraffic (server : Server σ) (t : Task) (past : List (Visit σ)) (q : Request)
    (g : Visit σ) (c : ConfigMap) : Prop where
  last : LastRead past g
  reads : g.Reads server t.key c
  /-- It goes to the namespace and the name that the ConfigMap gives. -/
  target : Records.deleteRequest
    ⟨c.metadata.ns.getD t.key.ns, c.metadata.name.getD t.key.name⟩ c.metadata.uid = .ok q
  /-- It requires the uid that the ConfigMap gives, and nothing if it gives none. -/
  body : q.body = some (Records.deleteBody c.metadata.uid)
  /-- It goes where the record was read if the ConfigMap gives no other key. -/
  same_key (hns : ∀ ns ∈ c.metadata.ns, ns = t.key.ns)
    (hname : ∀ name ∈ c.metadata.name, name = t.key.name) :
    Records.deleteRequest t.key c.metadata.uid = .ok q

theorem getD_of_forall_mem {α : Type} {o : Option α} {a : α} (h : ∀ b ∈ o, b = a) :
    o.getD a = a := by
  cases o with
  | none => rfl
  | some b => exact h b rfl

/-- A call sends one DELETE at most, as its last request. Name, namespace and precondition are those
of the ConfigMap it read last, whatever was asked for and whether or not there is a uid. -/
theorem delete_traffic (server : Server σ) (s : Remote σ) (t : Task) :
    let run := Remote.call server t s
    ∃ vs, Visits server t.config.fieldManager s vs run.state ∧
      run.state.link.sent = s.link.sent ++ vs.flatMap (·.sent) ∧
      ∀ past v rest q, vs = past ++ v :: rest → q ∈ v.sent → q.method = .delete →
        v.sent = [q] ∧ rest = [] ∧ ∃ g c, DeleteTraffic server t past q g c := by
  intro run
  obtain ⟨o, vs, -, hvs, hp⟩ := Remote.call_visits server t s
  refine ⟨vs, hvs, hvs.sent_eq, ?_⟩
  rintro past ⟨before, question, a, sent⟩ rest q rfl hq hm
  obtain ⟨k, uid, rfl, hdelete, rfl⟩ := (hvs.made (by simp)).of_delete hq hm
  rw [List.map_append, List.map_cons] at hp
  have hlast := hp.nil_of_delete rfl
  obtain ⟨stage, es, stage', hpast, hl, -⟩ := hp.through rfl
  obtain ⟨r, gone, rfl, rfl, rfl⟩ := hl.of_delete
  obtain ⟨g, c, hlastRead, hc, rfl⟩ := exists_lastRead (fun w hw => hvs.made (by simp [hw])) hpast
  refine ⟨rfl, List.map_eq_nil_iff.1 hlast, g, c, hlastRead, hc, hdelete,
    (Records.of_deleteRequest hdelete).2, fun hns hname => ?_⟩
  have hkey : (c.toRecord t.key).key = t.key :=
    congrArg₂ Key.mk (getD_of_forall_mem hns) (getD_of_forall_mem hname)
  rw [← hkey]
  exact hdelete

def clearing : Task := ⟨.unlock, .named "ns" "c" none, .default, false⟩

/-- The requests of the unlock call when the record is answered with a ConfigMap and the DELETE
succeeds. -/
def clearingRequests (c : ConfigMap) : List (Method × String × Option String) :=
  (Remote.call replay clearing
    ⟨Link.fresh [Machines.jsonAnswer 200 c.toJson, Cabinet.gone], none⟩).state.link.sent.map
      fun q => (q.method, q.uri, q.body.map (·.compact))

/-- A ConfigMap without a uid is deleted whatever has become of it, and one that gives another key
is not deleted but whatever is under that key. -/
theorem delete_traffic_stray :
    clearingRequests (ConfigMap.ofRecord abandoned) =
        [(.get, "/api/v1/namespaces/ns/configmaps/c-etcd-lock", none),
          (.delete, "/api/v1/namespaces/ns/configmaps/c-etcd-lock?", some "\x7b\x7d")] ∧
      clearingRequests ⟨⟨some "other", some "elsewhere", some "u", none, none⟩, none⟩ =
        [(.get, "/api/v1/namespaces/ns/configmaps/c-etcd-lock", none),
          (.delete, "/api/v1/namespaces/elsewhere/configmaps/other?",
            some "\x7b\"preconditions\":\x7b\"uid\":\"u\"\x7d\x7d")] := by
  decide +kernel

end InitLock.Api
