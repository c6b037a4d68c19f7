import InitLock.Api.Backend
import InitLock.Proofs.Api.Cabinet
import InitLock.Proofs.Mutex.Crowd
import Mathlib.Logic.Relator

/-!
# ConfigMaps in place of memory

On a server that keeps ConfigMaps the store answers every question as the store
in memory does, uids aside (`KeepsConfigMaps.mirrors`). So calls on the one and
on the other end alike under every schedule, and leave the same records
(`KeepsConfigMaps.refines_memory`).
-/

namespace InitLock.Api

open Mutex
open Store (Memory)

/-! ## Contents that match -/

namespace Shelf

/-- The records in memory and the ConfigMaps on the shelf correspond, uids aside. -/
def Holds (s : Shelf) (B : Pairing) (m : Memory) : Prop :=
  ∀ k, Option.Rel (fun r c => r.Twins B (c.toRecord k)) (m.records.get? k) (s.objects k)

/-- The records correspond, and their uids one to one. Paired uids have been given, by the store in
memory and by the server. -/
structure Matches (s : Shelf) (B : Pairing) (m : Memory) : Prop where
  pairs : Relator.BiUnique B
  given {u u' : String} (h : B u u') : m.Given (some u) ∧ s.given u'
  keyed {k : Key} {r : Record} (h : m.records.get? k = some r) : r.key = k
  records : s.Holds B m

variable {s : Shelf} {B : Pairing} {m m' : Memory} {r : Record} {k : Key} {uid : String}

theorem Holds.mono {B' : Pairing} (h : s.Holds B m) (hB : ∀ u u', B u u' → B' u u') :
    s.Holds B' m := fun k => rel_mono (h k) fun _ _ ht => ht.mono hB

theorem Matches.vacant (h : s.Matches B m) (hk : m.records.get? k = none) :
    s.objects k = none := by
  have := h.records k
  rw [hk] at this
  generalize s.objects k = o at this
  cases this
  rfl

theorem Matches.taken (h : s.Matches B m) (hk : m.records.get? k = some r) :
    ∃ c, s.objects k = some c ∧ r.Twins B (c.toRecord k) := by
  have := h.records k
  rw [hk] at this
  generalize s.objects k = o at this
  cases this with
  | some ht => exact ⟨_, rfl, ht⟩

/-- Uids that were never given make a new pair. -/
theorem Matches.biUnique_add (h : s.Matches B m) (hfresh : ¬ s.given uid) :
    Relator.BiUnique (B.add m.nextUid uid) :=
  Pairing.biUnique_add h.pairs (fun _ hu => (h.given hu).1.nextUid_ne rfl)
    fun _ hu => hfresh (h.given hu).2

theorem Matches.put (h : s.Matches B m) (hvacant : m.records.get? r.key = none)
    (hfresh : ¬ s.given uid) :
    (s.put r.key (ConfigMap.ofRecord r) uid).Matches (B.add m.nextUid uid)
      { m.store r with creates := m.creates + 1 } where
  pairs := h.biUnique_add hfresh
  given := by
    rintro u u' (hu | ⟨rfl, rfl⟩)
    · exact ⟨(Memory.Change.create r hvacant).given (h.given hu).1, .inr (h.given hu).2⟩
    · exact ⟨m.given_nextUid r, .inl rfl⟩
  keyed {k r'} hr' := by
    have hget := m.get?_store r k
    rw [show (m.store r).records.get? k = some r' from hr'] at hget
    split at hget
    · next hk => cases hget; exact hk.symm
    · exact h.keyed hget.symm
  records k := by
    show Option.Rel _ ((m.store r).records.get? k) _
    rw [m.get?_store r k]
    simp only [Shelf.put]
    split
    · refine .some ?_
      rw [ConfigMap.withUid, ConfigMap.toRecord_ofRecord k r (some uid)]
      exact ⟨rfl, rfl, rfl, rfl, rfl, m.nextUid, uid, rfl, rfl, .inr ⟨rfl, rfl⟩⟩
    · exact h.records.mono (fun _ _ => .inl) k

theorem Matches.take (h : s.Matches B m) (k : Key) :
    (s.take k).Matches B { m with records := m.records.erase k, deletes := m.deletes + 1 } where
  pairs := h.pairs
  given := h.given
  keyed hr := h.keyed (Memory.get?_erase_some hr)
  records k' := by
    simp only [Shelf.take, Table.get?_erase]
    split
    · exact .none
    · exact h.records k'

end Shelf

/-! ## Answers alike -/

section
variable {σ α : Type} {server : Server σ} {shelf : σ → Shelf} {manager : String} {k : Key}

def Remote.quiet (s : Remote σ) : Link σ := { s.link with events := [] }

@[simp] theorem Remote.quiet_state (s : Remote σ) : s.quiet.state = s.link.state := rfl

/-- What is done over the link is answered at once; `f` is what of the server's state matters. -/
theorem Remote.replies {β : Type} {f : σ → β} {x : β} {q : Question} {s : Remote σ}
    {action : Action σ q.Answer} {a : q.Answer}
    (hq : backend server manager q s = reply (s.perform action))
    (h : ∃ l, action s.quiet = (a, l) ∧ f l.state = x) :
    ∃ s₁, (backend server manager).Replies q s a s₁ ∧ f s₁.link.state = x := by
  obtain ⟨l, h, hx⟩ := h
  have hperform : s.perform action =
      (a, l.events.map Event.line, { s with link := { l with events := [] } }) := by
    rw [quiet] at h
    simp only [perform, h]
  rw [hperform] at hq
  exact ⟨_, ⟨by rw [hq]; rfl, by rw [hq]; rfl, rfl⟩, by rw [hq]; exact hx⟩

variable {B : Pairing} {s : Local} {s' : Remote σ}

theorem KeepsConfigMaps.read_alike (h : KeepsConfigMaps server shelf) (hk : Addressable k)
    (hs : (shelf s'.link.state).Matches B s.store) :
    ∃ a a' s₁ s₁', Local.backend.Replies (.read k) s a s₁ ∧
      (Remote.backend server manager).Replies (.read k) s' a' s₁' ∧ ReadAlike B k a a' ∧
        (shelf s₁'.link.state).Matches B s₁.store := by
  obtain ⟨s₁', hr, hshelf⟩ := Remote.replies (q := .read k) (s := s') rfl (h.read hk)
  refine ⟨s.store.read k, _, s, s₁', ⟨rfl, rfl, rfl⟩, hr, ?_, hshelf ▸ hs⟩
  rw [Remote.quiet_state, Memory.read, Shelf.read]
  cases hget : s.store.records.get? k with
  | none =>
    rw [hs.vacant hget]
    exact .error _
  | some r =>
    obtain ⟨c, hc, ht⟩ := hs.taken hget
    rw [hc]
    exact .ok (hs.keyed hget) ht

/-- A record is created alike, with new uids that make a new pair. -/
theorem KeepsConfigMaps.create_alike (h : KeepsConfigMaps server shelf) {r : Record}
    (hr : IsNew r) (hk : Addressable r.key) (hm : Manages manager r.ns)
    (hs : (shelf s'.link.state).Matches B s.store) :
    ∃ B' a s₁ s₁', (∀ u u', B u u' → B' u u') ∧ Local.backend.Replies (.create r) s a s₁ ∧
      (Remote.backend server manager).Replies (.create r) s' a s₁' ∧
        (shelf s₁'.link.state).Matches B' s₁.store := by
  have hc := s.store.created r
  generalize hcreate : s.store.create r = o at hc
  have hlocal : Local.backend.Replies (.create r) s o.1 { s with store := o.2 } := by
    refine ⟨?_, rfl, ?_⟩ <;>
      simp only [Local.backend, Local.backendUnder, Local.meet, Local.answer, hcreate]
  cases hc with
  | unnamed e hun =>
    rcases hun with hun | hun
    · exact absurd hun hk.ns.1
    · exact absurd hun hk.name.1
  | taken other ho =>
    obtain ⟨c, hc, -⟩ := hs.taken ho
    obtain ⟨s₁', hr', hshelf⟩ :=
      Remote.replies (q := .create r) (s := s') rfl (h.create_taken hr hk.ns hk.name hm hc)
    exact ⟨B, _, _, s₁', fun _ _ => id, hlocal, hr', hshelf ▸ hs⟩
  | ok hns hname hvacant =>
    obtain ⟨uid, hfresh, hcreated⟩ :=
      h.create_vacant (l := s'.quiet) hr hk.ns hk.name hm (hs.vacant hvacant)
    obtain ⟨s₁', hr', hshelf⟩ := Remote.replies (q := .create r) (s := s') rfl hcreated
    exact ⟨B.add s.store.nextUid uid, _, _, s₁', fun _ _ => .inl, hlocal, hr',
      hshelf ▸ hs.put hvacant hfresh⟩

theorem KeepsConfigMaps.delete_alike (h : KeepsConfigMaps server shelf) (hk : Removable k)
    {u u' : String} (hu : B u u') (hs : (shelf s'.link.state).Matches B s.store) :
    ∃ a s₁ s₁', Local.backend.Replies (.delete k (some u)) s a s₁ ∧
      (Remote.backend server manager).Replies (.delete k (some u')) s' a s₁' ∧
        (shelf s₁'.link.state).Matches B s₁.store := by
  have hd := s.store.deleted k (some u)
  generalize hdelete : s.store.delete k (some u) = o at hd
  have hlocal : Local.backend.Replies (.delete k (some u)) s o.1 { s with store := o.2 } := by
    refine ⟨?_, rfl, ?_⟩ <;>
      simp only [Local.backend, Local.backendUnder, Local.meet, Local.answer, hdelete]
  cases hd with
  | notFound hnone =>
    obtain ⟨s₁', hr, hshelf⟩ := Remote.replies (q := .delete k (some u')) (s := s') rfl
      (h.delete_absent hk _ (hs.vacant hnone))
    exact ⟨_, _, s₁', hlocal, hr, hshelf ▸ hs⟩
  | conflict r hget _ hne =>
    obtain ⟨c, hc, ht⟩ := hs.taken hget
    obtain ⟨v, v', hv, hv', hpair⟩ := ht.uids
    have hother : c.metadata.uid ≠ some u' := fun he =>
      hne (hv.trans (congrArg some (hs.pairs.1 hpair (Option.some.inj (hv'.symm.trans he) ▸ hu))))
    obtain ⟨s₁', hr, hshelf⟩ := Remote.replies (q := .delete k (some u')) (s := s') rfl
      (h.delete_conflict hk hc hother)
    exact ⟨_, _, s₁', hlocal, hr, hshelf ▸ hs⟩
  | ok r hget hsame =>
    obtain ⟨c, hc, ht⟩ := hs.taken hget
    obtain ⟨v, v', hv, hv', hpair⟩ := ht.uids
    have hvu : v = u := Option.some.inj (hv.symm.trans (hsame.resolve_left (Option.some_ne_none _)))
    have hsame' : c.metadata.uid = some u' :=
      hv'.trans (congrArg some (hs.pairs.2 hpair (hvu ▸ hu)))
    obtain ⟨s₁', hr, hshelf⟩ := Remote.replies (q := .delete k (some u')) (s := s') rfl
      (h.delete_present hk hc (.inr hsame'))
    exact ⟨_, _, s₁', hlocal, hr, hshelf ▸ hs.take k⟩

/-- Each request that a call of the task comes to can be sent. Only lock calls create records, and
those that inspect delete none. -/
structure Sendable (t : Task) : Prop where
  reading : Addressable t.key
  creation : t.Locks → Manages t.config.fieldManager t.key.ns
  removal : t.operation ≠ .inspect → Removable t.key

/-- The server answers the questions of a task about its record as the store in memory does. -/
theorem KeepsConfigMaps.mirrors {t : Task} (h : KeepsConfigMaps server shelf) (ht : Sendable t) :
    Mirrors (fun B (s : Local) (s' : Remote σ) => (shelf s'.link.state).Matches B s.store) t
      Local.backend (Remote.backend server t.config.fieldManager) where
  read hs := h.read_alike ht.reading hs
  create hlocks _ _ _ hs :=
    h.create_alike (r := t.newRecord) ⟨_, _, _, rfl⟩ ht.reading (ht.creation hlocks) hs
  delete ho _ _ _ hs _ _ hu := h.delete_alike (ht.removal ho) hu hs

end

/-! ## Runs alike -/

/-- A schedule on a server; each call creates records under its own field manager. -/
def onServer {σ : Type} (server : Server σ) (tasks : List Task) (s : Remote σ)
    (ms : List Crowd.Move) : Crowd (Remote σ) :=
  (Crowd.ofTasks tasks s).follow (fun t => Remote.backend server t.config.fieldManager) ms

/-- A call that is alone ends on the server as it does in a run of its own. -/
theorem onServer_alone {σ : Type} (server : Server σ) (t : Task) (s : Remote σ)
    (alive : Except Error Bool) :
    (onServer server [t] s (List.replicate 6 (.turn 0 alive))).outcomes =
      [(Run.complete ((Remote.backend server t.config.fieldManager).telling alive) t false
        s).call.outcome?] := by
  have hquiet : ∀ q s,
      ((Remote.backend server t.config.fieldManager).telling alive q s).1.fires = false := by
    intro q s
    cases q <;> rfl
  rw [onServer, Crowd.follow_alone hquiet]
  rfl

/-- Two crowds, one in memory and one on the server, have ended the same calls in the same way and
have left the same records, uids aside. -/
structure Agree {σ : Type} (shelf : σ → Shelf) (B : Pairing) (c : Crowd Local)
    (c' : Crowd (Remote σ)) : Prop where
  outcomes : c'.outcomes = c.outcomes
  records : (shelf c'.shared.link.state).Holds B c.shared.store

/-- Calls on a server that keeps ConfigMaps and calls on the store in memory, with the same answers
for machines and in the same order, end alike, and after every step the records are the same; only
the uids differ, by one pairing for the whole run. -/
theorem KeepsConfigMaps.refines_memory {σ : Type} {server : Server σ} {shelf : σ → Shelf}
    (h : KeepsConfigMaps server shelf) {B : Pairing} {s : Local} {s' : Remote σ}
    (hs : (shelf s'.link.state).Matches B s.store) {tasks : List Task}
    (htasks : ∀ t ∈ tasks, Sendable t) (ms : List Crowd.Move) :
    ∃ B' : Pairing, Relator.BiUnique B' ∧ (∀ u u', B u u' → B' u u') ∧ ∀ n, Agree shelf B'
      (Crowd.inMemory tasks s (ms.take n)) (onServer server tasks s' (ms.take n)) := by
  have hstart : Crowd.Alike (fun B (s : Local) (s' : Remote σ) =>
      (shelf s'.link.state).Matches B s.store) (fun _ => Local.backend)
      (fun t => Remote.backend server t.config.fieldManager) B (.ofTasks tasks s)
      (.ofTasks tasks s') := by
    refine ⟨fun i => ?_, hs⟩
    simp only [Crowd.ofTasks, List.getElem?_map]
    cases ht : tasks[i]? with
    | none => exact .none
    | some t => exact .some ⟨h.mirrors (htasks t (List.mem_of_getElem? ht)), rfl, rfl, .none⟩
  obtain ⟨B', hend, hsteps⟩ := hstart.follow ms
  obtain ⟨B₀, hB, hB', -⟩ := hsteps 0
  refine ⟨B', hend.shared.pairs, fun u u' hu => hB' u u' (hB u u' hu), fun n => ?_⟩
  obtain ⟨Bₙ, -, hBₙ, halike⟩ := hsteps n
  exact ⟨halike.outcomes_eq, halike.shared.records.mono hBₙ⟩

/-! ## A succession of holders -/

/-- The record of a machine that is gone. -/
def abandoned : Record := .naming "z" (.named "ns" "c" none) "c-etcd-lock"

def memoryBefore : Local :=
  ⟨{ Memory.empty.store abandoned with creates := Memory.empty.creates + 1 }, .empty⟩

/-- A server with that record, which has given other uids before. -/
def cabinetBefore : Cabinet :=
  ⟨Table.empty.insert abandoned.key ((ConfigMap.ofRecord abandoned).withUid (Memory.uid 8)), 8⟩

theorem matches_empty (n : Nat) :
    (Cabinet.shelf ⟨.empty, n⟩).Matches (fun _ _ => False) Memory.empty :=
  ⟨⟨nofun, nofun⟩, nofun, nofun, fun _ => .none⟩

theorem matches_before : (Cabinet.shelf cabinetBefore).Matches
    (Pairing.add (fun _ _ => False) (Memory.uid 1) (Memory.uid 8)) memoryBefore.store := by
  have hfresh : ¬ (Cabinet.shelf ⟨.empty, 7⟩).given (Memory.uid 8) := by
    rintro ⟨n, hn, he⟩
    obtain rfl := Memory.uid_inj he
    exact absurd hn (by decide)
  have hput := (matches_empty 7).put (r := abandoned) rfl hfresh
  rwa [← Cabinet.shelf_create ⟨.empty, 7⟩] at hput

/-- Three calls that are to lock for different machines, and one that is to say who holds the lock,
under one field manager. -/
def successors (manager : String) : List Task :=
  [.lock "a", .lock "b", .lock "c", .inspect].map fun operation =>
    ⟨operation, .named "ns" "c" none, Config.default.withFieldManager manager, false⟩

/-- The calls for `a` and `b` find the record of the machine that is gone. The one for `a` deletes
it, the one for `c` creates its own, which the one for `b` is then not to delete. -/
def succession : List Crowd.Move :=
  [0, 0, 0, 1, 1, 1, 0, 2, 2, 2, 1, 3, 3].map fun i => .turn i (.ok false)

theorem sendable_successors : ∀ t ∈ successors "kubeadm", Sendable t := by
  have hkey : Addressable (Config.default.lockKey (.named "ns" "c" none)) := by
    constructor <;> decide
  have hremovable : Removable (Config.default.lockKey (.named "ns" "c" none)) :=
    ⟨hkey, by decide⟩
  have hmanages : Manages "kubeadm" "ns" := by constructor <;> decide
  intro t ht
  obtain ⟨operation, -, rfl⟩ := List.mem_map.1 ht
  exact ⟨hkey, fun _ => hmanages, fun _ => hremovable⟩

/-- The call for `b` loses its claim on the server as it does in memory, although the record that it
is not to delete has another uid there. -/
theorem refines_memory_succession :
    ∃ B : Pairing, Relator.BiUnique B ∧ (∀ n, Agree Cabinet.shelf B
        (Crowd.inMemory (successors "kubeadm") memoryBefore (succession.take n))
        (onServer Cabinet.server (successors "kubeadm") ⟨Link.fresh cabinetBefore, none⟩
          (succession.take n))) ∧
      (onServer Cabinet.server (successors "kubeadm") ⟨Link.fresh cabinetBefore, none⟩
        succession).outcomes =
          [some (.answered false), some (.answered false), some (.answered true),
            some (.observed (.held "c"))] := by
  obtain ⟨B, hB, -, hagree⟩ := @KeepsConfigMaps.refines_memory _ _ _ Cabinet.keeps _ memoryBefore
    ⟨Link.fresh cabinetBefore, none⟩ matches_before _ sendable_successors succession
  refine ⟨B, hB, hagree, ?_⟩
  have hend := (hagree succession.length).outcomes
  rw [List.take_length] at hend
  rw [hend]
  decide +kernel

/-! ## Requests that are not sent -/

def attempt (ns : String) : Task := ⟨.lock "a", .named ns "c" none, .default, false⟩

def threeTurns : List Crowd.Move := List.replicate 3 (.turn 0 (.ok false))

theorem attempt_start (ns : String) : (attempt ns).start.2 = .reading :=
  Task.start_eq_reading (by simp [attempt])

theorem attempt_name (ns : String) : (attempt ns).key.name ≠ "" :=
  show "c" ++ "-etcd-lock" ≠ "" by decide

theorem inMemory_attempt {ns : String} (hns : ns ≠ "") :
    (Crowd.inMemory [attempt ns] .empty threeTurns).outcomes = [some (.answered true)] := by
  have hread : Local.backend.Replies (.read (attempt ns).key) .empty
    (.error (.notFound (attempt ns).key)) .empty := ⟨rfl, rfl, rfl⟩
  have hnamed : ¬ ((attempt ns).newRecord.ns = "" ∨ (attempt ns).newRecord.name = "") :=
    not_or.2 ⟨hns, attempt_name ns⟩
  have hanswer : (Local.empty.answer (.create (attempt ns).newRecord)).1 = .ok () := by
    simp only [Local.answer, Memory.create, if_neg hnamed]
    rfl
  have hcreate : Local.backend.Replies (.create (attempt ns).newRecord) .empty (.ok ())
    (Local.empty.answer (.create (attempt ns).newRecord)).2 := ⟨congrArg some hanswer, rfl, rfl⟩
  simp only [Crowd.inMemory, threeTurns, Crowd.follow, List.replicate, List.foldl_cons,
    List.foldl_nil, Crowd.first_alone, attempt_start]
  have hcreating : ((attempt ns).afterRead (.error (.notFound (attempt ns).key))).2 = .creating :=
    rfl
  rw [Crowd.step_alone rfl (hread.telling (by simp) _), hcreating,
    Crowd.step_alone rfl (hcreate.telling (by simp) _)]
  rfl

/-- Nothing is read with a request that cannot be built. -/
theorem Remote.read_unsent {σ : Type} {server : Server σ} {manager : String} {k : Key}
    {flaw : RequestFlaw} (s : Remote σ) (h : Records.readRequest k = .error flaw) :
    ∃ s₁, (backend server manager).Replies (.read k) s
      (.error (.other (.api (.unsent flaw)))) s₁ := by
  obtain ⟨s₁, hr, -⟩ :=
    Remote.replies (f := id) (q := .read k) rfl ⟨s.quiet, Records.read_unsent h, rfl⟩
  exact ⟨s₁, hr⟩

/-- A record whose address is too long is not read, and the lock call answers false. -/
theorem onServer_attempt {σ : Type} (server : Server σ) (s : Remote σ) {ns : String}
    (hlong : maxUriLength < (recordAddress (attempt ns).key).utf8ByteSize) :
    (onServer server [attempt ns] s threeTurns).outcomes = [some (.answered false)] := by
  have hrequest : Records.readRequest (attempt ns).key = .error (.uri .length) := by
    rw [Records.readRequest, getRequest_of_ne (attempt_name ns)]
    exact Request.to_of_long hlong
  obtain ⟨s₁, hreply⟩ := Remote.read_unsent s hrequest
  simp only [onServer, threeTurns, Crowd.follow, List.replicate, List.foldl_cons, List.foldl_nil,
    Crowd.first_alone, attempt_start]
  rw [Crowd.step_alone rfl (hreply.telling (by simp) _)]
  rfl

/-- On a server that keeps ConfigMaps a field manager with a name that is too long makes the lock
call for `c` fail, and a namespace with a name that is too long any lock call. In memory they
answer true. -/
theorem lock_unsent :
    KeepsConfigMaps Cabinet.server Cabinet.shelf ∧
      (Cabinet.shelf cabinetBefore).Matches
        (Pairing.add (fun _ _ => False) (Memory.uid 1) (Memory.uid 8)) memoryBefore.store ∧
      (∀ t ∈ successors (longName 129), UrlSafe t.key.ns ∧ UrlSafe t.key.name) ∧
      (Crowd.inMemory (successors (longName 129)) memoryBefore succession).outcomes =
        [some (.answered false), some (.answered false), some (.answered true),
          some (.observed (.held "c"))] ∧
      (onServer Cabinet.server (successors (longName 129)) ⟨Link.fresh cabinetBefore, none⟩
        succession).outcomes =
          [some (.answered false), some (.answered false), some (.answered false),
            some (.observed .unlocked)] ∧
      (Cabinet.shelf ⟨.empty, 0⟩).Matches (fun _ _ => False) Local.empty.store ∧
      UrlSafe (attempt (longName 65536)).key.ns ∧ UrlSafe (attempt (longName 65536)).key.name ∧
      (Crowd.inMemory [attempt (longName 65536)] .empty threeTurns).outcomes =
        [some (.answered true)] ∧
      (onServer Cabinet.server [attempt (longName 65536)] ⟨Link.fresh ⟨.empty, 0⟩, none⟩
        threeTurns).outcomes = [some (.answered false)] := by
  have hsafe : UrlSafe (longName 65536) := urlSafe_longName (by decide)
  have hlong : maxUriLength < (recordAddress (attempt (longName 65536)).key).utf8ByteSize := by
    have hns : (attempt (longName 65536)).key.ns = longName 65536 := rfl
    simp only [recordAddress, Records.address, collection, String.utf8ByteSize_append, hns,
      size_longName, maxUriLength]
    omega
  exact ⟨Cabinet.keeps, matches_before, by decide +kernel, by decide +kernel, by decide +kernel,
    matches_empty 0, hsafe, show UrlSafe ("c" ++ "-etcd-lock") by decide,
    inMemory_attempt hsafe.1, onServer_attempt _ _ hlong⟩

end InitLock.Api
