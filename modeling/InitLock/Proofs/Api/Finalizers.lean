import InitLock.Proofs.Api.Cabinet
import InitLock.Proofs.Api.Writes

/-!
# Finalizers

A server may keep a ConfigMap that is to be deleted until its finalizers have
run, and answers the DELETE with the object all the same (`Finalizes`). Whatever
else is done to the server in between (`Server.amid`), an unlock call that
answers true leaves no record, or such an object (`Finalizes.unlock_leaves`).
-/

namespace InitLock.Api

open Mutex
open Json (Value)

variable {σ : Type}

/-! ## What an unlock call does -/

/-- What an unlock call that answers true has done: it found no record, or it deleted the one that
it found. -/
inductive Unlocked (server : Server σ) (k : Key) (s s' : Remote σ) : Prop
  | vacant {met : σ} {q : Request} (hq : Records.readRequest k = .ok q)
    (hm : Server.Misses server q met) (hstate : s'.link.state = (server q met).2) :
    Unlocked server k s s'
  | deleted {before met : σ} {q q' : Request} {c : ConfigMap} (hq : Records.readRequest k = .ok q)
    (hc : Server.read server ConfigMap.reader q before = .ok c)
    (hq' : Records.deleteRequest (c.toRecord k).key (c.toRecord k).uid = .ok q')
    (hnot : ∀ reason, ¬ Server.Refuses server q' met 409 reason)
    (hstate : s'.link.state = (server q' met).2) (hsent : s'.link.sent = s.link.sent ++ [q, q']) :
    Unlocked server k s s'

theorem Remote.call_unlocked (server : Server σ) {t : Task} (s : Remote σ)
    (ho : t.operation = .unlock)
    (htrue : (Remote.call server t s).call.outcome? = some (.answered true)) :
    Unlocked server t.key s (Remote.call server t s).state := by
  obtain ⟨o, vs, hend, hvs, hp⟩ := Remote.call_visits server t s
  obtain rfl := Option.some.inj (htrue.symm.trans hend)
  rcases hp.unlocked ho with ⟨k, hxs⟩ | ⟨r, a, hxs, ha⟩
  · obtain ⟨v, rfl, hv⟩ := List.map_eq_singleton_iff.1 hxs
    obtain ⟨hquestion, q, hq, -, hm⟩ := Visit.misses (hvs.made (by simp)) hv
    have hlast := @Visits.last _ _ _ _ _ [] _ hvs
    refine .vacant hq hm ?_
    rw [hlast, hquestion, Remote.state_of_read hq]
  · obtain ⟨g, vs, rfl, hg, hvs'⟩ := List.map_eq_cons_iff.1 hxs
    obtain ⟨v, rfl, hv⟩ := List.map_eq_singleton_iff.1 hvs'
    obtain ⟨c, ⟨-, q, hq, hsent, hc⟩, rfl⟩ := Visit.reads (hvs.made (by simp)) hg
    obtain ⟨hquestion, q', hq', hsent', hnot⟩ := Visit.deletes (hvs.made (by simp)) hv ha
    have hlast := @Visits.last _ _ _ _ _ [g] _ hvs
    refine .deleted hq hc hq' hnot ?_ ?_
    · rw [hlast, hquestion, Remote.state_of_delete hq']
    · rw [hvs.sent_eq]
      simp only [List.flatMap_cons, List.flatMap_nil, hsent, hsent', List.singleton_append,
        List.append_nil]

/-! ## Servers that keep what has finalizers -/

/-- A server that keeps ConfigMaps by namespace and name, each with a uid. A DELETE of one that has
finalizers is answered with the object, which is still there afterwards. -/
structure Finalizes (server : Server σ) (objects : σ → Key → Option ConfigMap)
    (finalized : σ → Key → Prop) : Prop where
  safe {s k c} (h : objects s k = some c) : UrlSafe k.ns ∧ UrlSafe k.name
  named {s k c} (h : objects s k = some c) :
    c.metadata.ns = some k.ns ∧ c.metadata.name = some k.name ∧ ∃ uid, c.metadata.uid = some uid
  read_steady {s k} (hns : UrlSafe k.ns) (hname : UrlSafe k.name) :
    objects (server (readingOf k) s).2 = objects s
  read_some {s k c} (h : objects s k = some c) :
    Server.read server ConfigMap.reader (readingOf k) s = .ok c
  read_none {s k} (hns : UrlSafe k.ns) (hname : UrlSafe k.name) (h : objects s k = none) :
    Server.Misses server (readingOf k) s
  delete_none {s k uid} (hns : UrlSafe k.ns) (hname : UrlSafe k.name) (h : objects s k = none) :
    objects (server (deletionOf k uid) s).2 = objects s ∧ Server.Misses server (deletionOf k uid) s
  delete_other {s k c uid} (h : objects s k = some c) (hother : c.metadata.uid ≠ some uid) :
    objects (server (deletionOf k (some uid)) s).2 = objects s ∧
      ∃ reason, Server.Refuses server (deletionOf k (some uid)) s 409 reason
  delete_free {s k c uid} (h : objects s k = some c) (hsame : uid = none ∨ c.metadata.uid = uid)
    (hfree : ¬ finalized s k) :
    (∀ k', objects (server (deletionOf k uid) s).2 k' = if k' = k then none else objects s k') ∧
      (server (deletionOf k uid) s).1.text.bind (readDeleted ConfigMap.reader) = .ok ()
  delete_kept {s k c uid} (h : objects s k = some c) (hsame : uid = none ∨ c.metadata.uid = uid)
    (hkept : finalized s k) :
    ∃ c', c'.metadata.uid = c.metadata.uid ∧
      (∀ k', objects (server (deletionOf k uid) s).2 k' =
        if k' = k then some c' else objects s k') ∧
      Server.read server ConfigMap.reader (deletionOf k uid) s = .ok c'

/-! ## Servers that others use as well -/

/-- The state of a server, and what others do to it before each of the next requests. -/
structure Shared (σ : Type) where
  state : σ
  others : List (σ → σ)

def Shared.met (s : Shared σ) : σ := s.others.headD id s.state

def Server.amid (server : Server σ) : Server (Shared σ) := fun q s =>
  let (a, state) := server q s.met
  (a, ⟨state, s.others.tail⟩)

/-- The last request was a DELETE of the object under the key, which has finalizers. It was answered
with the object, and the object is still there. -/
structure Lingers (server : Server σ) (objects : σ → Key → Option ConfigMap)
    (finalized : σ → Key → Prop) (k : Key) (met : σ) (uid : String) (c : ConfigMap)
    (s : Remote (Shared σ)) : Prop where
  last : ∃ sent, s.link.sent = sent ++ [deletionOf k (some uid)]
  after : s.link.state.state = (server (deletionOf k (some uid)) met).2
  finalized : finalized met k
  answer : Server.read server ConfigMap.reader (deletionOf k (some uid)) met = .ok c
  object : objects s.link.state.state k = some c

namespace Finalizes

variable {server : Server σ} {objects : σ → Key → Option ConfigMap} {finalized : σ → Key → Prop}
  {k : Key} {q : Request} {s : σ} {c : ConfigMap}

/-- Nothing is kept under a key for which an answer with the code 404 came. -/
theorem vacant_of_misses (h : Finalizes server objects finalized)
    (hq : Records.readRequest k = .ok q) (hm : Server.Misses server q s) :
    objects (server q s).2 k = none := by
  cases hc : objects (server q s).2 k with
  | none => rfl
  | some c =>
    obtain ⟨hns, hname⟩ := h.safe hc
    obtain rfl := Records.eq_readingOf hns hname hq
    rw [h.read_steady hns hname] at hc
    obtain ⟨f, hf, -⟩ := Server.misses_iff.1 hm
    cases (h.read_some hc).symm.trans hf

/-- What is read under a key is what is kept there. -/
theorem object_of_read (h : Finalizes server objects finalized) (hns : UrlSafe k.ns)
    (hname : UrlSafe k.name) (hq : Records.readRequest k = .ok q)
    (hc : Server.read server ConfigMap.reader q s = .ok c) : objects s k = some c := by
  obtain rfl := Records.eq_readingOf hns hname hq
  cases hobject : objects s k with
  | none =>
    obtain ⟨f, hf, -⟩ := Server.misses_iff.1 (h.read_none hns hname hobject)
    cases hc.symm.trans hf
  | some c' =>
    cases (h.read_some hobject).symm.trans hc
    rfl

/-- The record of a ConfigMap that is kept has its key and a uid. -/
theorem toRecord (h : Finalizes server objects finalized) (hc : objects s k = some c) :
    (c.toRecord k).key = k ∧ ∃ uid, (c.toRecord k).uid = some uid := by
  obtain ⟨hns, hname, huid⟩ := h.named hc
  refine ⟨?_, huid⟩
  rw [Record.key, ConfigMap.toRecord, hns, hname]
  rfl

/-- What is still there after a DELETE that was not refused for a conflict has finalizers. -/
theorem kept_of_delete (h : Finalizes server objects finalized) {uid : String}
    (hns : UrlSafe k.ns) (hname : UrlSafe k.name)
    (hnot : ∀ reason, ¬ Server.Refuses server (deletionOf k (some uid)) s 409 reason)
    (hc : objects (server (deletionOf k (some uid)) s).2 k = some c) :
    finalized s k ∧ Server.read server ConfigMap.reader (deletionOf k (some uid)) s = .ok c := by
  cases hobject : objects s k with
  | none =>
    rw [(h.delete_none hns hname hobject).1, hobject] at hc
    cases hc
  | some c' =>
    by_cases hsame : c'.metadata.uid = some uid
    · by_cases hkept : finalized s k
      · obtain ⟨c'', -, hobjects, hread⟩ := h.delete_kept hobject (.inr hsame) hkept
        rw [hobjects, if_pos rfl] at hc
        cases hc
        exact ⟨hkept, hread⟩
      · rw [(h.delete_free hobject (.inr hsame) hkept).1, if_pos rfl] at hc
        cases hc
    · obtain ⟨-, reason, hrefuses⟩ := h.delete_other hobject hsame
      exact absurd hrefuses (hnot reason)

end Finalizes

/-! ## A server with one record -/

/-- A server with room for one ConfigMap. -/
structure Vault where
  present : Bool
  finalized : Bool

namespace Vault

def kept : ConfigMap := (ConfigMap.ofRecord abandoned).withUid "u"

def objects (s : Vault) (k : Key) : Option ConfigMap :=
  if s.present ∧ k = abandoned.key then some kept else none

/-- Deletes the ConfigMap under a key, unless it has finalizers. -/
def delete (s : Vault) (k : Key) (required : Option String) : Answer × Vault :=
  match s.objects k with
  | none => (Machines.missing, s)
  | some c =>
    if required = none ∨ c.metadata.uid = required then
      if s.finalized then (Machines.jsonAnswer 200 c.toJson, s)
      else (Cabinet.gone, { s with present := false })
    else (Cabinet.conflicting "Conflict", s)

def server : Server Vault := fun q s =>
  match q.method, q.body with
  | .delete, body => s.delete (Cabinet.keyAt q.uri) (body.bind Cabinet.requiredUid)
  | _, _ =>
    match s.objects (Cabinet.keyAt q.uri) with
    | some c => (Machines.jsonAnswer 200 c.toJson, s)
    | none => (Machines.missing, s)

variable {s : Vault} {k : Key} {c : ConfigMap} {uid : Option String}

theorem of_objects (h : s.objects k = some c) :
    s.present = true ∧ k = abandoned.key ∧ c = kept := by
  unfold objects at h
  split at h
  · next hk => exact ⟨hk.1, hk.2, (Option.some.inj h).symm⟩
  · cases h

theorem urlSafe_of_objects (h : s.objects k = some c) : UrlSafe k.ns ∧ UrlSafe k.name := by
  obtain ⟨-, rfl, -⟩ := of_objects h
  decide +kernel

theorem server_reading (hns : UrlSafe k.ns) (hname : UrlSafe k.name) :
    server (readingOf k) s =
      match s.objects k with
      | some c => (Machines.jsonAnswer 200 c.toJson, s)
      | none => (Machines.missing, s) := by
  have hkey : Cabinet.keyAt (recordAddress k) = k := by
    have := Cabinet.keyAt_recordAddress (t := "") hns hname rfl
    rwa [String.append_empty] at this
  simp only [server, readingOf, hkey]

theorem server_deletion (uid : Option String) (hns : UrlSafe k.ns) (hname : UrlSafe k.name) :
    server (deletionOf k uid) s = s.delete k uid := by
  simp only [server, deletionOf, Cabinet.keyAt_recordAddress (t := "?") hns hname rfl,
    Option.bind_some, Cabinet.requiredUid_deleteBody]

theorem finalizes : Finalizes server objects (fun s _ => s.finalized = true) where
  safe := urlSafe_of_objects
  named h := by
    obtain ⟨-, rfl, rfl⟩ := of_objects h
    exact ⟨rfl, rfl, _, rfl⟩
  read_steady {s k} hns hname := by
    rw [server_reading hns hname]
    split <;> rfl
  read_some {s k c} h := by
    obtain ⟨hns, hname⟩ := urlSafe_of_objects h
    rw [Server.read, server_reading hns hname, h]
    exact Cabinet.read_toJson (by decide) c
  read_none hns hname h := by
    refine ⟨⟨"Failure", "", "", 404⟩, ?_, rfl⟩
    rw [server_reading hns hname, h]
    exact Machines.missing_text
  delete_none {s k uid} hns hname h := by
    rw [Server.Misses, server_deletion uid hns hname, delete, h]
    exact ⟨rfl, ⟨"Failure", "", "", 404⟩, Machines.missing_text, rfl⟩
  delete_other {s k c uid} h hother := by
    obtain ⟨hns, hname⟩ := urlSafe_of_objects h
    have hnot : ¬ (some uid = none ∨ c.metadata.uid = some uid) :=
      not_or.2 ⟨Option.some_ne_none _, hother⟩
    have hdelete : s.delete k (some uid) = (Cabinet.conflicting "Conflict", s) := by
      simp only [delete, h, if_neg hnot]
    simp only [Server.Refuses]
    rw [server_deletion _ hns hname, hdelete]
    exact ⟨rfl, "Conflict", ⟨"Failure", "", "Conflict", 409⟩,
      Cabinet.conflicting_text "Conflict" (.inr rfl), rfl, rfl⟩
  delete_free {s k c uid} h hsame hfree := by
    obtain ⟨hns, hname⟩ := urlSafe_of_objects h
    have hdelete : s.delete k uid = (Cabinet.gone, { s with present := false }) := by
      simp only [delete, h, if_pos hsame, if_neg hfree]
    obtain ⟨body, htext, hread⟩ := Cabinet.read_gone
    rw [server_deletion _ hns hname, hdelete, htext]
    refine ⟨fun k' => ?_, hread⟩
    split
    · rfl
    · next hne =>
      obtain ⟨-, rfl, -⟩ := of_objects h
      simp [objects, hne]
  delete_kept {s k c uid} h hsame hkept := by
    obtain ⟨hns, hname⟩ := urlSafe_of_objects h
    have hdelete : s.delete k uid = (Machines.jsonAnswer 200 c.toJson, s) := by
      simp only [delete, h, if_pos hsame, if_pos hkept]
    refine ⟨c, rfl, fun k' => ?_, ?_⟩
    · rw [server_deletion _ hns hname, hdelete]
      split
      · next he => rw [he, h]
      · rfl
    · rw [Server.read, server_deletion _ hns hname, hdelete]
      exact Cabinet.read_toJson (by decide) c

/-- A record that has finalizers, on a server that others use as well. -/
def withOthers (others : List (Vault → Vault)) : Remote (Shared Vault) :=
  ⟨Link.fresh ⟨⟨true, true⟩, others⟩, none⟩

def release (s : Vault) : Vault := { s with finalized := false }

end Vault

/-! ## What an unlock call leaves -/

/-- An unlock call that answers true leaves no record, unless the object has finalizers: then the
DELETE has been answered with the object, which is still there. -/
theorem Finalizes.unlock_leaves {server : Server σ} {objects : σ → Key → Option ConfigMap}
    {finalized : σ → Key → Prop} (h : Finalizes server objects finalized) (s : Remote (Shared σ))
    {t : Task} (ho : t.operation = .unlock)
    (htrue : (Remote.call server.amid t s).call.outcome? = some (.answered true)) :
    objects (Remote.call server.amid t s).state.link.state.state t.key = none ∨
      ∃ met uid c, Lingers server objects finalized t.key met uid c
        (Remote.call server.amid t s).state := by
  have hun := Remote.call_unlocked server.amid s ho htrue
  generalize (Remote.call server.amid t s).state = s' at hun ⊢
  cases hun with
  | vacant hq hm hstate =>
    rw [hstate]
    exact .inl (h.vacant_of_misses hq hm)
  | @deleted before met q q' c hq hc hq' hnot hstate hsent =>
    cases hfinal : objects s'.link.state.state t.key with
    | none => exact .inl rfl
    | some c' =>
      obtain ⟨hns, hname⟩ := h.safe hfinal
      obtain ⟨hkey, uid, huid⟩ := h.toRecord (h.object_of_read hns hname hq hc)
      rw [hkey, huid] at hq'
      obtain rfl := Records.eq_deletionOf hns hname hq'
      have hafter : s'.link.state.state = (server (deletionOf t.key (some uid)) met.met).2 :=
        congrArg Shared.state hstate
      obtain ⟨hkept, hread⟩ := h.kept_of_delete hns hname hnot (hafter ▸ hfinal)
      have hlast : s'.link.sent = (s.link.sent ++ [q]) ++ [deletionOf t.key (some uid)] := by
        rw [hsent, List.append_assoc]
        rfl
      exact .inr ⟨met.met, uid, c', ⟨_, hlast⟩, hafter, hkept, hread, hfinal⟩

/-- Whether the unlock call for the record answers true, and the ConfigMap that it leaves. -/
def cleared (others : List (Vault → Vault)) : Bool × Option ConfigMap :=
  let run := Remote.call Vault.server.amid clearing (Vault.withOthers others)
  (decide (run.call.outcome? = some (.answered true)),
    run.state.link.state.state.objects clearing.key)

example : cleared [id, Vault.release] = (true, none) := by decide +kernel

/-- While the record has finalizers, the call answers true and leaves it. -/
theorem unlock_leaves_lingering :
    ∃ met uid c, Lingers Vault.server Vault.objects (fun s _ => s.finalized = true) clearing.key met
      uid c (Remote.call Vault.server.amid clearing (Vault.withOthers [])).state := by
  refine (Vault.finalizes.unlock_leaves (Vault.withOthers []) (t := clearing) rfl
    (by decide +kernel)).resolve_left ?_
  decide +kernel

/-- After an unlock call that has answered true, the next request for the record is answered with
it. -/
theorem unlock_unfinished :
    Finalizes Vault.server Vault.objects (fun s _ => s.finalized = true) ∧
      cleared [] = (true, some Vault.kept) ∧
      Server.read Vault.server ConfigMap.reader (readingOf clearing.key)
        (Remote.call Vault.server.amid clearing (Vault.withOthers [])).state.link.state.state =
          .ok Vault.kept :=
  ⟨Vault.finalizes, by decide +kernel, by decide +kernel⟩

end InitLock.Api
