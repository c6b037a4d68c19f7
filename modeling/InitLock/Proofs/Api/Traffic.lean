import InitLock.Proofs.Api.Machines
import InitLock.Proofs.Api.Refinement
import InitLock.Proofs.Mutex.Transcript

/-!
# Traffic

What a call sends to the server. A question makes a `Trip`: no request if none
can be built, one request for a question about a record, and requests that
change nothing for a question about a machine (`Gets`). A call visits the server
once for each exchange (`Remote.visits`), so all requests it sends are those of its
visits, in order.
-/

namespace InitLock.Api

open Mutex

variable {σ α β : Type} {server : Server σ}

/-! ## Requests that change nothing -/

theorem method_of_getRequest {place name : String} {q : Request}
    (h : getRequest place name = .ok q) : q.method = .get := by
  unfold getRequest member at h
  split at h
  · cases h
  · obtain ⟨uri, -, rfl⟩ := Request.of_to h
    rfl

/-- Whatever has been sent, what is done over the link adds only requests that read. -/
structure Gets (m : Action σ α) : Prop where
  sends (l : Link σ) : ∃ qs, (m l).2.sent = l.sent ++ qs ∧ ∀ q ∈ qs, q.method = .get

namespace Gets

theorem pure (a : α) : Gets (Pure.pure a : Action σ α) :=
  ⟨fun _ => ⟨[], (List.append_nil _).symm, nofun⟩⟩

theorem bind {m : Action σ α} {f : α → Action σ β} (hm : Gets m) (hf : ∀ a, Gets (f a)) :
    Gets (m >>= f) where
  sends l := by
    obtain ⟨qs, hqs, hget⟩ := hm.sends l
    obtain ⟨qs', hqs', hget'⟩ := (hf (m l).1).sends (m l).2
    refine ⟨qs ++ qs', ?_, fun q hq => (List.mem_append.1 hq).elim (hget q) (hget' q)⟩
    rw [Action.bind_run, hqs', hqs, List.append_assoc]

theorem query_bind {m : Query σ α} {f : α → Query σ β} (hm : Gets m.run)
    (hf : ∀ a, Gets (f a).run) : Gets (m >>= f).run := by
  show Gets ((m.run : Action σ (Except Failure α)) >>= ExceptT.bindCont f)
  refine hm.bind fun o => ?_
  cases o with
  | ok a => exact hf a
  | error e => exact .pure _

theorem report (e : Event) : Gets (Link.report e : Action σ Unit) :=
  ⟨fun _ => ⟨[], (List.append_nil _).symm, nofun⟩⟩

theorem value {reader : Json.Reader α} {r : Except RequestFlaw Request}
    (h : ∀ q, r = .ok q → q.method = .get) : Gets (Link.value server reader r).run where
  sends l := by
    cases r with
    | error flaw => exact ⟨[], (List.append_nil _).symm, nofun⟩
    | ok q =>
      rw [Link.value_ok]
      exact ⟨[q], rfl, fun q' hq' => h q' (congrArg _ (List.mem_singleton.1 hq').symm)⟩

theorem document {reader : Json.Reader α} {address : String} :
    Gets (Link.document server reader address).run := by
  unfold Link.document
  split
  · exact .pure _
  · refine .value fun q hq => ?_
    cases hq
    rfl

end Gets

namespace Discovery

theorem gets_listVersions (root : String) (vs : List GroupVersion) :
    Gets (listVersions server root vs).run := by
  induction vs with
  | nil => exact .pure _
  | cons v vs ih => exact .query_bind .document fun _ => .query_bind ih fun _ => .pure _

theorem gets_listGroup (root name : String) (vs : List GroupVersion) :
    Gets (listGroup server root name vs).run := by
  unfold listGroup
  split
  · exact .pure _
  · exact gets_listVersions root vs

theorem gets_listGroups (name : String) (found : Option (List (String × List Resource)))
    (gs : List Group) : Gets (listGroups server name found gs).run := by
  induction gs generalizing found with
  | nil => exact .pure _
  | cons g gs ih =>
    unfold listGroups
    split
    · exact .query_bind (gets_listGroup ..) fun _ => ih _
    · exact ih found

theorem gets_resources (name : String) : Gets (resources server name).run := by
  unfold resources
  refine .query_bind .document fun gs => .query_bind (gets_listGroups ..) fun found => ?_
  split
  · exact .query_bind .document fun _ => gets_listGroup ..
  · exact .pure _

theorem gets_find (group kind : String) : Gets (find server group kind) := by
  unfold find
  refine (gets_resources group).bind fun o => ?_
  cases o with
  | error f => exact .pure _
  | ok versions =>
    dsimp only
    split <;> exact (Gets.report _).bind fun _ => .pure _

end Discovery

namespace Machines

theorem gets_lookUp (r : Resource) (ns machine : String) : Gets (lookUp server r ns machine) := by
  unfold lookUp
  refine .bind (.value fun q hq => method_of_getRequest hq) fun o => ?_
  cases o <;> exact .pure _

theorem gets_resource (server : Server σ) (kept : Option Resource) :
    Gets (resource server kept) := by
  cases kept with
  | some r => exact .pure _
  | none => exact (Discovery.gets_find ..).bind fun _ => .pure _

theorem gets_confirm (server : Server σ) (r : Resource) (ns machine : String) :
    Gets (confirm server r ns machine) := by
  unfold confirm
  refine ((Discovery.gets_find ..).bind fun _ => .pure _).bind fun (current, kept) => ?_
  cases current with
  | error e => exact .pure _
  | ok current =>
    dsimp only
    split
    · exact (Gets.report _).bind fun _ => .pure _
    · exact (Gets.report _).bind fun _ => (gets_lookUp ..).bind fun _ => .pure _

theorem gets_alive (server : Server σ) (ns machine : String) (kept : Option Resource) :
    Gets (alive server ns machine kept) := by
  unfold alive
  refine (gets_resource server kept).bind fun (found, kept) => ?_
  cases found with
  | error e => exact .pure _
  | ok r =>
    refine (gets_lookUp ..).bind fun answer => ?_
    split
    · exact gets_confirm ..
    · exact .pure _

/-- Machines are looked up at a resource by a request that is answered with the code 404, and
discovery run right after that finds machines served. -/
structure Confirmed (server : Server σ) (ns machine : String) (s : Remote σ) (q : Request) :
    Prop where
  served : ∃ r, (resource server s.kept s.quiet).1.1 = .ok r ∧ request r ns machine = .ok q
  missed : Server.Misses server q (resource server s.kept s.quiet).2.state
  found : ∃ current l, Discovery.find server Cluster.group kindName
    ((resource server s.kept s.quiet).2.after server q) = (.ok current, l)

/-- A machine is reported absent only after a request for it was answered with the code 404 and
discovery has succeeded since. -/
theorem confirmed_of_alive {ns machine : String} {s : Remote σ}
    (h : (alive server ns machine s.kept s.quiet).1.1 = .ok false) :
    ∃ q qs qs', Confirmed server ns machine s q ∧
      (alive server ns machine s.kept s.quiet).2.sent = s.link.sent ++ (qs ++ q :: qs') := by
  obtain ⟨qs, hqs, -⟩ := (gets_resource server s.kept).sends s.quiet
  cases hr : (resource server s.kept s.quiet).1.1 with
  | error e =>
    rw [alive_of_error hr] at h
    cases h
  | ok r =>
    rcases hlook : lookUp server r ns machine (resource server s.kept s.quiet).2 with ⟨answer, l⟩
    by_cases hne : answer = .ok false
    · subst hne
      obtain ⟨q, hq, hmiss, rfl⟩ := lookUp_false_iff.1 hlook
      rw [alive_of_false hr hlook] at h ⊢
      obtain ⟨qs', hqs', -⟩ := (gets_confirm server r ns machine).sends
        ((resource server s.kept s.quiet).2.after server q)
      refine ⟨q, qs, qs', ⟨⟨r, hr, hq⟩, hmiss, ?_⟩, ?_⟩
      · rcases hfind : Discovery.find server Cluster.group kindName
          ((resource server s.kept s.quiet).2.after server q) with ⟨e | current, l⟩
        · rw [confirm_of_error hfind] at h
          cases h
        · exact ⟨current, l, rfl⟩
      · rw [hqs', Link.after_sent, hqs]
        simp [Remote.quiet]
    · rw [alive_of_ne hr hlook hne] at h
      exact absurd h hne

end Machines

/-! ## What a question comes to -/

/-- What a question in a state of the remote comes to: the answer, and the requests that are sent
for it. -/
inductive Trip (server : Server σ) (manager : String) (s : Remote σ) :
    (question : Question) → question.Answer → List Request → Prop
  | unread {k : Key} {flaw : RequestFlaw} (hq : Records.readRequest k = .error flaw) :
    Trip server manager s (.read k) (.error (.other (.api (.unsent flaw)))) []
  | read {k : Key} {q : Request} {c : ConfigMap} (hq : Records.readRequest k = .ok q)
    (hc : Server.read server ConfigMap.reader q s.link.state = .ok c) :
    Trip server manager s (.read k) (.ok (c.toRecord k)) [q]
  | missed {k : Key} {q : Request} (hq : Records.readRequest k = .ok q)
    (hm : Server.Misses server q s.link.state) :
    Trip server manager s (.read k) (.error (.notFound k)) [q]
  | readFailed {k : Key} {q : Request} {f : Failure} (hq : Records.readRequest k = .ok q)
    (hf : Server.read server ConfigMap.reader q s.link.state = .error f)
    (hn : f.isNotFound = false) : Trip server manager s (.read k) (.error (.other (.api f))) [q]
  | uncreated {r : Record} {flaw : RequestFlaw}
    (hq : Records.createRequest manager r = .error flaw) :
    Trip server manager s (.create r) (.error (.other (.api (.unsent flaw)))) []
  | created {r : Record} {q : Request} {c : ConfigMap}
    (hq : Records.createRequest manager r = .ok q)
    (hc : Server.read server ConfigMap.reader q s.link.state = .ok c) :
    Trip server manager s (.create r) (.ok ()) [q]
  | taken {r : Record} {q : Request} (hq : Records.createRequest manager r = .ok q)
    (hr : Server.Refuses server q s.link.state 409 "AlreadyExists") :
    Trip server manager s (.create r) (.error (.alreadyExists r.key)) [q]
  | createFailed {r : Record} {q : Request} {f : Failure}
    (hq : Records.createRequest manager r = .ok q)
    (hf : Server.read server ConfigMap.reader q s.link.state = .error f)
    (he : f.isAlreadyExists = false) :
    Trip server manager s (.create r) (.error (.other (.api f))) [q]
  | undeleted {k : Key} {uid : Option String} {flaw : RequestFlaw}
    (hq : Records.deleteRequest k uid = .error flaw) :
    Trip server manager s (.delete k uid) (.error (.other (.api (.unsent flaw)))) []
  | deleted {k : Key} {uid : Option String} {q : Request} {body : List Char}
    (hq : Records.deleteRequest k uid = .ok q) (ht : (server q s.link.state).1.text = .ok body)
    (hd : readDeleted ConfigMap.reader body = .ok ()) :
    Trip server manager s (.delete k uid) (.ok ()) [q]
  | deleteFailed {k : Key} {uid : Option String} {q : Request} {f : Failure}
    (hq : Records.deleteRequest k uid = .ok q)
    (hf : (server q s.link.state).1.text.bind (readDeleted ConfigMap.reader) = .error f) :
    Trip server manager s (.delete k uid) (.error (Records.deleteError k uid f).1) [q]
  | asked {ns machine : String} {a : Except Error Bool} {qs : List Request}
    (hget : ∀ q ∈ qs, q.method = .get)
    (habsent : a = .ok false → ∃ q ∈ qs, Machines.Confirmed server ns machine s q) :
    Trip server manager s (.alive ns machine) a qs

theorem Server.text_of_read {reader : Json.Reader α} {q : Request} {s : σ} {r : Refusal}
    (h : Server.read server reader q s = .error (.refused r)) :
    (server q s).1.text = .error (.refused r) := by
  unfold Server.read at h
  cases ht : (server q s).1.text with
  | error f => rw [ht] at h; cases h; rfl
  | ok cs =>
    rw [ht] at h
    simp only [Except.bind, readBody] at h
    cases hr : reader.document cs <;> rw [hr] at h <;> cases h

theorem Server.refuses_of_isAlreadyExists {reader : Json.Reader α} {q : Request} {s : σ}
    {f : Failure} (hf : Server.read server reader q s = .error f) (he : f.isAlreadyExists = true) :
    Server.Refuses server q s 409 "AlreadyExists" := by
  cases f with
  | refused r =>
    simp only [Failure.isAlreadyExists, Bool.and_eq_true, decide_eq_true_eq] at he
    exact ⟨r, Server.text_of_read hf, he⟩
  | _ => cases he

namespace Remote

section
variable (server : Server σ) (manager : String) (s : Remote σ)

theorem trip_read (k : Key) : ∃ qs, (Records.read server k s.quiet).2.sent = s.link.sent ++ qs ∧
    Trip server manager s (.read k) (Records.read server k s.quiet).1 qs := by
  cases hq : Records.readRequest k with
  | error flaw =>
    rw [Records.read_unsent hq]
    exact ⟨[], (List.append_nil _).symm, .unread hq⟩
  | ok q =>
    rw [Records.read_sent hq]
    refine ⟨[q], rfl, ?_⟩
    cases hc : Server.read server ConfigMap.reader q s.quiet.state with
    | ok c => exact .read hq hc
    | error f =>
      dsimp only
      split
      · next hn => exact .missed hq (Server.misses_iff.2 ⟨f, hc, hn⟩)
      · next hn => exact .readFailed hq hc (Bool.eq_false_iff.2 hn)

theorem trip_create (r : Record) :
    ∃ qs, (Records.create server manager r s.quiet).2.sent = s.link.sent ++ qs ∧
      Trip server manager s (.create r) (Records.create server manager r s.quiet).1 qs := by
  cases hq : Records.createRequest manager r with
  | error flaw =>
    rw [Records.create_unsent hq]
    exact ⟨[], (List.append_nil _).symm, .uncreated hq⟩
  | ok q =>
    rw [Records.create_sent hq]
    refine ⟨[q], rfl, ?_⟩
    cases hc : Server.read server ConfigMap.reader q s.quiet.state with
    | ok c => exact .created hq hc
    | error f =>
      dsimp only
      split
      · next he => exact .taken hq (Server.refuses_of_isAlreadyExists hc he)
      · next he => exact .createFailed hq hc (Bool.eq_false_iff.2 he)

theorem trip_delete (k : Key) (uid : Option String) :
    ∃ qs, (Records.delete server k uid s.quiet).2.sent = s.link.sent ++ qs ∧
      Trip server manager s (.delete k uid) (Records.delete server k uid s.quiet).1 qs := by
  cases hq : Records.deleteRequest k uid with
  | error flaw =>
    rw [Records.delete_unsent hq]
    exact ⟨[], (List.append_nil _).symm, .undeleted hq⟩
  | ok q =>
    rw [Records.delete_sent hq]
    cases hd : (server q s.quiet.state).1.text.bind (readDeleted ConfigMap.reader) with
    | ok =>
      cases ht : (server q s.quiet.state).1.text with
      | error f => rw [ht] at hd; cases hd
      | ok body =>
        rw [ht] at hd
        exact ⟨[q], rfl, .deleted hq ht hd⟩
    | error f =>
      refine ⟨[q], ?_, .deleteFailed hq hd⟩
      dsimp only
      cases (Records.deleteError k uid f).2 <;> rfl

theorem trip_alive (ns machine : String) :
    ∃ qs, (Machines.alive server ns machine s.kept s.quiet).2.sent = s.link.sent ++ qs ∧
      Trip server manager s (.alive ns machine)
        (Machines.alive server ns machine s.kept s.quiet).1.1 qs := by
  obtain ⟨qs, hqs, hget⟩ :=
    (Machines.gets_alive server ns machine s.kept).sends s.quiet
  refine ⟨qs, hqs, .asked hget fun h => ?_⟩
  obtain ⟨q, past, rest, hconfirmed, hsent⟩ := Machines.confirmed_of_alive h
  obtain rfl := List.append_cancel_left (hqs.symm.trans hsent)
  exact ⟨q, by simp, hconfirmed⟩

/-- Every question comes to an answer, and what is sent for it is what such a question sends. -/
theorem trip (q : Question) :
    ∃ a qs, (backend server manager q s).1.answer = some a ∧
      (backend server manager q s).2.link.sent = s.link.sent ++ qs ∧
      Trip server manager s q a qs := by
  cases q with
  | read k =>
    obtain ⟨qs, hqs, ht⟩ := trip_read server manager s k
    exact ⟨_, qs, rfl, hqs, ht⟩
  | create r =>
    obtain ⟨qs, hqs, ht⟩ := trip_create server manager s r
    exact ⟨_, qs, rfl, hqs, ht⟩
  | delete k uid =>
    obtain ⟨qs, hqs, ht⟩ := trip_delete server manager s k uid
    exact ⟨_, qs, rfl, hqs, ht⟩
  | alive ns machine =>
    obtain ⟨qs, hqs, ht⟩ := trip_alive server manager s ns machine
    exact ⟨_, qs, rfl, hqs, ht⟩

end

section
variable {manager : String} {k : Key} {q : Request}

theorem state_of_read (hq : Records.readRequest k = .ok q) (s : Remote σ) :
    (backend server manager (.read k) s).2.link.state = (server q s.link.state).2 := by
  show (Records.read server k s.quiet).2.state = _
  rw [Records.read_sent hq]
  rfl

theorem state_of_delete {uid : Option String} (hq : Records.deleteRequest k uid = .ok q)
    (s : Remote σ) :
    (backend server manager (.delete k uid) s).2.link.state = (server q s.link.state).2 := by
  show (Records.delete server k uid s.quiet).2.state = _
  rw [Records.delete_sent hq]
  cases (server q s.quiet.state).1.text.bind (readDeleted ConfigMap.reader) with
  | ok => rfl
  | error f =>
    dsimp only
    cases (Records.deleteError k uid f).2 <;> rfl

end

end Remote

/-! ## Visits -/

/-- A question that was asked of the remote in a state, its answer and what was sent for it. -/
structure Visit (σ : Type) where
  before : Remote σ
  question : Question
  answer : question.Answer
  sent : List Request

namespace Visit

def exchange (v : Visit σ) : Exchange := ⟨v.question, some v.answer⟩

/-- The visit is what its question comes to. -/
def Made (server : Server σ) (manager : String) (v : Visit σ) : Prop :=
  Trip server manager v.before v.question v.answer v.sent

end Visit

/-- The visits that take the remote from one state to another, one after the other. -/
inductive Visits (server : Server σ) (manager : String) (s : Remote σ) :
    List (Visit σ) → Remote σ → Prop
  | nil : Visits server manager s [] s
  | concat {vs : List (Visit σ)} {v : Visit σ} (h : Visits server manager s vs v.before)
    (ha : (Remote.backend server manager v.question v.before).1.answer = some v.answer)
    (hs : (Remote.backend server manager v.question v.before).2.link.sent =
      v.before.link.sent ++ v.sent)
    (hmade : v.Made server manager) :
    Visits server manager s (vs ++ [v]) (Remote.backend server manager v.question v.before).2

section
variable {manager : String} {s s' : Remote σ} {vs : List (Visit σ)} {v : Visit σ}

/-- All that has been sent was sent on the visits. -/
theorem Visits.sent_eq (h : Visits server manager s vs s') :
    s'.link.sent = s.link.sent ++ vs.flatMap (·.sent) := by
  induction h with
  | nil => exact (List.append_nil _).symm
  | concat _ _ hs _ ih =>
    rw [hs, ih, List.flatMap_append, List.flatMap_singleton, List.append_assoc]

theorem Visits.last (h : Visits server manager s (vs ++ [v]) s') :
    s' = (Remote.backend server manager v.question v.before).2 := by
  generalize hws : vs ++ [v] = ws at h
  cases h with
  | nil => simp at hws
  | concat =>
    obtain ⟨-, hv⟩ := List.append_inj' hws rfl
    cases hv
    rfl

theorem Visits.made (h : Visits server manager s vs s') (hv : v ∈ vs) :
    v.Made server manager := by
  induction h with
  | nil => cases hv
  | concat _ _ _ hmade ih =>
    rcases List.mem_append.1 hv with hv | hv
    · exact ih hv
    · rw [List.mem_singleton.1 hv]
      exact hmade

end

/-- A call visits the server once for each of its exchanges. -/
theorem Remote.visits (server : Server σ) (manager : String) {s : Remote σ} {r : Run (Remote σ)}
    {vs : List (Visit σ)} (hvs : Visits server manager s vs r.state)
    (hxs : r.exchanges = vs.map Visit.exchange) (n : Nat) :
    ∃ vs', Visits server manager s vs' (r.turns (Remote.backend server manager) n).state ∧
      (r.turns (Remote.backend server manager) n).exchanges = vs'.map Visit.exchange := by
  induction n generalizing r vs with
  | zero => exact ⟨vs, hvs, hxs⟩
  | succ n ih =>
    rcases Run.turn_cases (Remote.backend server manager) r with ⟨he, hs⟩ | ⟨q, he, hs⟩
    · exact ih (hs ▸ hvs) (he.trans hxs)
    · obtain ⟨a, qs, ha, hsent, ht⟩ := Remote.trip server manager r.state q
      let v : Visit σ := ⟨r.state, q, a, qs⟩
      have hnext :
          Visits server manager s (vs ++ [v]) (Remote.backend server manager q r.state).2 :=
        .concat hvs ha hsent ht
      have hexchanges : (r.turn (Remote.backend server manager)).exchanges =
          (vs ++ [v]).map Visit.exchange := by
        rw [he, hxs, ha, List.map_append]
        rfl
      exact ih (hs ▸ hnext) hexchanges

def Remote.call (server : Server σ) (t : Task) (s : Remote σ) : Run (Remote σ) :=
  Run.complete (Remote.backend server t.config.fieldManager) t false s

/-- A call that nothing cancels visits the server until it has ended. -/
theorem Remote.call_visits (server : Server σ) (t : Task) (s : Remote σ) :
    ∃ o vs, (Remote.call server t s).call.outcome? = some o ∧
      Visits server t.config.fieldManager s vs (Remote.call server t s).state ∧
      t.Path (vs.map Visit.exchange) (.ended o) := by
  have hb : (Remote.backend server t.config.fieldManager).Answers := fun q s => by
    obtain ⟨a, -, ha, -⟩ := Remote.trip server t.config.fieldManager s q
    exact ⟨a, ha⟩
  have hu : (Remote.backend server t.config.fieldManager).Undisturbed t false :=
    .inr ⟨rfl, fun q _ => by cases q <;> rfl⟩
  obtain ⟨o, ho, hp⟩ := Run.complete_path hb hu s
  obtain ⟨vs, hvs, hxs⟩ :=
    visits server t.config.fieldManager (r := Run.begin t false s) .nil rfl 5
  exact ⟨o, vs, ho, hvs, hxs ▸ hp⟩

end InitLock.Api
