import InitLock.Api.Records
import InitLock.Proofs.Api.ConfigMap
import InitLock.Proofs.Api.Link
import InitLock.Proofs.Api.Request

/-!
# Records on a server that keeps ConfigMaps

What reading, creating and deleting records comes to on a server that keeps
ConfigMaps by namespace and name (`KeepsConfigMaps`): the typed answers of the
store, whatever code and reason they were told by.
-/

namespace InitLock.Api

variable {σ : Type} {server : Server σ}

/-! ## What the server keeps -/

/-- What a server keeps: ConfigMaps by their keys, and the uids it has given. -/
structure Shelf where
  objects : Key → Option ConfigMap
  given : String → Prop

def ConfigMap.withUid (c : ConfigMap) (uid : String) : ConfigMap :=
  { c with metadata := { c.metadata with uid := some uid } }

namespace Shelf

def read (s : Shelf) (k : Key) : Except StoreError Record :=
  match s.objects k with
  | some c => .ok (c.toRecord k)
  | none => .error (.notFound k)

def put (s : Shelf) (k : Key) (c : ConfigMap) (uid : String) : Shelf where
  objects k' := if k' = k then some (c.withUid uid) else s.objects k'
  given u := u = uid ∨ s.given u

def take (s : Shelf) (k : Key) : Shelf :=
  { s with objects := fun k' => if k' = k then none else s.objects k' }

end Shelf

def recordAddress (k : Key) : String := Records.address k.ns ++ "/" ++ k.name

def readingOf (k : Key) : Request := ⟨.get, recordAddress k, none⟩

def managerQuery (manager : String) : String := "&fieldManager=" ++ Text.formEncode manager

def creationOf (manager : String) (r : Record) : Request :=
  ⟨.post, Records.address r.ns ++ "?" ++ managerQuery manager,
    some (ConfigMap.ofRecord r).toJson⟩

/-- A record as lock calls create them. No dictionary in it is empty, so it makes no difference
whether a server keeps empty ones. -/
def IsNew (r : Record) : Prop := ∃ machine cluster name, r = .naming machine cluster name

/-- The request to delete the ConfigMap under a key, if a uid is given only the one of that uid. -/
def deletionOf (k : Key) (uid : Option String) : Request :=
  ⟨.delete, recordAddress k ++ "?", some (Records.deleteBody uid)⟩

/-- In state `s` a server refuses a request with a code and a reason of its own. -/
def Server.Refuses (server : Server σ) (q : Request) (s : σ) (code : Nat) (reason : String) :
    Prop :=
  ∃ refusal : Refusal, (server q s).1.text = .error (.refused refusal) ∧
    refusal.code = code ∧ refusal.reason = reason

/-- A server that keeps ConfigMaps by namespace and name. A created one gets a uid that was never
given, a request that fails changes nothing, and what is deleted is gone. -/
structure KeepsConfigMaps (server : Server σ) (shelf : σ → Shelf) : Prop where
  read_steady : ∀ s k, UrlSafe k.ns → UrlSafe k.name → shelf (server (readingOf k) s).2 = shelf s
  read_some : ∀ s k c, UrlSafe k.ns → UrlSafe k.name → (shelf s).objects k = some c →
    Server.read server ConfigMap.reader (readingOf k) s = .ok c
  read_none : ∀ s k, UrlSafe k.ns → UrlSafe k.name → (shelf s).objects k = none →
    Server.Misses server (readingOf k) s
  create_some : ∀ s manager r c, IsNew r → UrlSafe r.ns → UrlSafe r.name →
    (shelf s).objects r.key = some c →
      shelf (server (creationOf manager r) s).2 = shelf s ∧
        Server.Refuses server (creationOf manager r) s 409 "AlreadyExists"
  create_none : ∀ s manager r, IsNew r → UrlSafe r.ns → UrlSafe r.name →
    (shelf s).objects r.key = none →
      ∃ uid, ¬ (shelf s).given uid ∧
        shelf (server (creationOf manager r) s).2 =
          (shelf s).put r.key (ConfigMap.ofRecord r) uid ∧
        Server.read server ConfigMap.reader (creationOf manager r) s =
          .ok ((ConfigMap.ofRecord r).withUid uid)
  delete_none : ∀ s k uid, UrlSafe k.ns → UrlSafe k.name → (shelf s).objects k = none →
    shelf (server (deletionOf k uid) s).2 = shelf s ∧ Server.Misses server (deletionOf k uid) s
  delete_other : ∀ s k uid c, UrlSafe k.ns → UrlSafe k.name → (shelf s).objects k = some c →
    c.metadata.uid ≠ some uid →
      shelf (server (deletionOf k (some uid)) s).2 = shelf s ∧
        ∃ reason, Server.Refuses server (deletionOf k (some uid)) s 409 reason
  delete_some : ∀ s k uid c, UrlSafe k.ns → UrlSafe k.name → (shelf s).objects k = some c →
    (uid = none ∨ c.metadata.uid = uid) →
      shelf (server (deletionOf k uid) s).2 = (shelf s).take k ∧
        ∃ body, (server (deletionOf k uid) s).1.text = .ok body ∧
          readDeleted ConfigMap.reader body = .ok ()

/-! ## Requests that can be sent -/

/-- A key under which a record can be read. -/
structure Addressable (k : Key) : Prop where
  ns : UrlSafe k.ns
  name : UrlSafe k.name
  short : (recordAddress k).utf8ByteSize ≤ maxUriLength

/-- A field manager under which records can be created in a namespace. -/
structure Manages (manager ns : String) : Prop where
  short : manager.utf8ByteSize ≤ Records.maxFieldManager
  address : (Records.address ns ++ "?" ++ managerQuery manager).utf8ByteSize ≤ maxUriLength

/-- A key under which a record can be deleted. -/
structure Removable (k : Key) : Prop extends Addressable k where
  deletion : (recordAddress k ++ "?").utf8ByteSize ≤ maxUriLength

theorem formByte_isQueryChar (b : UInt8) : (Text.formByte b).all isQueryChar = true := by
  have h : ∀ n < 256, (Text.formByte (UInt8.ofNat n)).all isQueryChar = true := by decide +kernel
  rw [← UInt8.ofNat_toNat (x := b)]
  exact h _ b.toNat_lt

theorem queryText_formEncode (s : String) : queryText (Text.formEncode s) = true := by
  rw [queryText, Text.formEncode, String.toList_ofList, List.all_flatMap]
  exact List.all_eq_true.2 fun b _ => formByte_isQueryChar b

theorem pathText_address {ns : String} (h : UrlSafe ns) : pathText (Records.address ns) = true := by
  simp only [Records.address, collection, pathText_append, pathText_of_urlSafe h, Bool.and_true,
    ↓reduceIte]
  decide

theorem pathText_recordAddress {k : Key} (hns : UrlSafe k.ns) (hname : UrlSafe k.name) :
    pathText (recordAddress k) = true := by
  simp only [recordAddress, pathText_append, pathText_address hns, pathText_of_urlSafe hname,
    Bool.and_true, Bool.true_and]
  decide

theorem Records.deleteRequest_of_ne {k : Key} {uid : Option String} (hname : k.name ≠ "") :
    Records.deleteRequest k uid =
      Request.to .delete (recordAddress k ++ "?") (some (Records.deleteBody uid)) := by
  have hmember : member (Records.address k.ns) k.name = .ok (recordAddress k) := if_neg hname
  rw [Records.deleteRequest, hmember]
  rfl

theorem Records.eq_readingOf {k : Key} {q : Request} (hns : UrlSafe k.ns) (hname : UrlSafe k.name)
    (h : Records.readRequest k = .ok q) : q = readingOf k := by
  rw [Records.readRequest, getRequest_of_ne hname.1] at h
  obtain ⟨uri, hu, rfl⟩ := Request.of_to h
  have huri := uriOf_of_pathText (pathText_recordAddress hns hname) (size_le_of_uriOf hu)
  cases huri.symm.trans hu
  rfl

theorem Records.eq_deletionOf {k : Key} {uid : Option String} {q : Request} (hns : UrlSafe k.ns)
    (hname : UrlSafe k.name) (h : Records.deleteRequest k uid = .ok q) : q = deletionOf k uid := by
  rw [Records.deleteRequest_of_ne hname.1] at h
  obtain ⟨uri, hu, rfl⟩ := Request.of_to h
  have hquery := @uriOf_of_query _ "" (pathText_recordAddress hns hname) rfl
  rw [String.append_empty] at hquery
  cases (hquery (size_le_of_uriOf hu)).symm.trans hu
  rfl

theorem Addressable.readRequest {k : Key} (h : Addressable k) :
    Records.readRequest k = .ok (readingOf k) :=
  getRequest_ok h.name (pathText_address h.ns) h.short

theorem Manages.createRequest {manager : String} {r : Record} (h : Manages manager r.ns)
    (hns : UrlSafe r.ns) : Records.createRequest manager r = .ok (creationOf manager r) := by
  have hsplit : Records.address r.ns ++ "?&fieldManager=" ++ Text.formEncode manager =
      Records.address r.ns ++ "?" ++ managerQuery manager := by
    have : ("?&fieldManager=" : String) = "?" ++ "&fieldManager=" := by decide
    rw [this, managerQuery, String.append_assoc, String.append_assoc, String.append_assoc]
  have hquery : queryText (managerQuery manager) = true := by
    rw [managerQuery, queryText, String.toList_append, List.all_append, Bool.and_eq_true]
    exact ⟨by decide, queryText_formEncode manager⟩
  rw [Records.createRequest, if_neg (Nat.not_lt.2 h.short), hsplit]
  exact Request.to_query (pathText_address hns) hquery h.address

theorem Removable.deleteRequest {k : Key} (h : Removable k) (uid : Option String) :
    Records.deleteRequest k uid = .ok (deletionOf k uid) := by
  have hsend := @Request.to_query _ "" .delete (some (Records.deleteBody uid))
    (pathText_recordAddress h.ns h.name) rfl (by rw [String.append_empty]; exact h.deletion)
  rw [String.append_empty] at hsend
  rw [Records.deleteRequest_of_ne h.name.1]
  exact hsend

/-! ## Answers -/

namespace Records

variable {manager : String} {k : Key} {r : Record} {uid : Option String} {q : Request}
  {flaw : RequestFlaw} {l : Link σ}

theorem read_sent (h : Records.readRequest k = .ok q) :
    Records.read server k l =
      (match Server.read server ConfigMap.reader q l.state with
        | .ok c => .ok (c.toRecord k)
        | .error f => .error (if f.isNotFound then .notFound k else .other (.api f)),
        l.after server q) := by
  rw [Records.read, h, Action.bind_run, Link.value_ok]
  dsimp only
  cases Server.read server ConfigMap.reader q l.state <;> rfl

theorem read_unsent (h : Records.readRequest k = .error flaw) :
    Records.read server k l = (.error (.other (.api (.unsent flaw))), l) := by
  rw [Records.read, h, Action.bind_run, Link.value_error]
  rfl

theorem create_sent (h : Records.createRequest manager r = .ok q) :
    Records.create server manager r l =
      (match Server.read server ConfigMap.reader q l.state with
        | .ok _ => .ok ()
        | .error f => .error (if f.isAlreadyExists then .alreadyExists r.key else .other (.api f)),
        l.after server q) := by
  rw [Records.create, h, Action.bind_run, Link.value_ok]
  dsimp only
  cases Server.read server ConfigMap.reader q l.state <;> rfl

theorem create_unsent (h : Records.createRequest manager r = .error flaw) :
    Records.create server manager r l = (.error (.other (.api (.unsent flaw))), l) := by
  rw [Records.create, h, Action.bind_run, Link.value_error]
  rfl

theorem delete_sent (h : Records.deleteRequest k uid = .ok q) :
    Records.delete server k uid l =
      match (server q l.state).1.text.bind (readDeleted ConfigMap.reader) with
      | .ok () => (.ok (), l.after server q)
      | .error f =>
        (.error (Records.deleteError k uid f).1,
          ((Records.deleteError k uid f).2.elim id fun e l => l.reported e)
            (l.after server q)) := by
  rw [Records.delete, h, Action.bind_run, Link.text_ok]
  dsimp only
  cases (server q l.state).1.text.bind (readDeleted ConfigMap.reader) with
  | ok => rfl
  | error f =>
    dsimp only
    cases (Records.deleteError k uid f).2 <;> rfl

theorem delete_unsent (h : Records.deleteRequest k uid = .error flaw) :
    Records.delete server k uid l = (.error (.other (.api (.unsent flaw))), l) := by
  rw [Records.delete, h]
  rfl

end Records

namespace KeepsConfigMaps

variable {shelf : σ → Shelf} {manager : String} {k : Key} {r : Record} {l : Link σ}

theorem read (h : KeepsConfigMaps server shelf) (hk : Addressable k) :
    ∃ l', Records.read server k l = ((shelf l.state).read k, l') ∧
      shelf l'.state = shelf l.state := by
  refine ⟨l.after server (readingOf k), ?_, h.read_steady _ k hk.ns hk.name⟩
  rw [Records.read_sent hk.readRequest, Shelf.read]
  cases hobject : (shelf l.state).objects k with
  | some c => rw [h.read_some _ k c hk.ns hk.name hobject]
  | none =>
    obtain ⟨f, hf, hnf⟩ := Server.misses_iff.1 (h.read_none _ k hk.ns hk.name hobject)
    rw [hf]
    simp only [hnf, ↓reduceIte]

theorem create_vacant (h : KeepsConfigMaps server shelf) (hr : IsNew r) (hns : UrlSafe r.ns)
    (hname : UrlSafe r.name) (hm : Manages manager r.ns)
    (hvacant : (shelf l.state).objects r.key = none) :
    ∃ uid, ¬ (shelf l.state).given uid ∧ ∃ l', Records.create server manager r l = (.ok (), l') ∧
      shelf l'.state = (shelf l.state).put r.key (ConfigMap.ofRecord r) uid := by
  obtain ⟨uid, hfresh, hshelf, hread⟩ :=
    h.create_none l.state manager r hr hns hname hvacant
  refine ⟨uid, hfresh, l.after server (creationOf manager r), ?_, hshelf⟩
  rw [Records.create_sent (hm.createRequest hns), hread]

theorem create_taken (h : KeepsConfigMaps server shelf) (hr : IsNew r) (hns : UrlSafe r.ns)
    (hname : UrlSafe r.name) (hm : Manages manager r.ns) {c : ConfigMap}
    (htaken : (shelf l.state).objects r.key = some c) :
    ∃ l', Records.create server manager r l = (.error (.alreadyExists r.key), l') ∧
      shelf l'.state = shelf l.state := by
  obtain ⟨hshelf, refusal, htext, hcode, hreason⟩ :=
    h.create_some l.state manager r c hr hns hname htaken
  refine ⟨l.after server (creationOf manager r), ?_, hshelf⟩
  have hread : Server.read server ConfigMap.reader (creationOf manager r) l.state =
      .error (.refused refusal) := by
    rw [Server.read, htext]
    rfl
  have hexists : (Failure.refused refusal).isAlreadyExists = true := by
    simp only [Failure.isAlreadyExists, hcode, hreason, decide_true, Bool.and_self]
  rw [Records.create_sent (hm.createRequest hns), hread]
  simp only [hexists, ↓reduceIte]

theorem delete_absent (h : KeepsConfigMaps server shelf) (hk : Removable k)
    (uid : Option String) (habsent : (shelf l.state).objects k = none) :
    ∃ l', Records.delete server k uid l = (.error (.notFound k), l') ∧
      shelf l'.state = shelf l.state := by
  obtain ⟨hshelf, refusal, htext, hcode⟩ := h.delete_none l.state k uid hk.ns hk.name habsent
  refine ⟨l.after server (deletionOf k uid), ?_, hshelf⟩
  rw [Records.delete_sent (hk.deleteRequest _), htext]
  simp only [Except.bind, Records.deleteError, hcode, ↓reduceIte]
  rfl

theorem delete_conflict (h : KeepsConfigMaps server shelf) (hk : Removable k) {uid : String}
    {c : ConfigMap} (hobject : (shelf l.state).objects k = some c)
    (hother : c.metadata.uid ≠ some uid) :
    ∃ l', Records.delete server k (some uid) l = (.error (.conflict k), l') ∧
      shelf l'.state = shelf l.state := by
  obtain ⟨hshelf, reason, refusal, htext, hcode, -⟩ :=
    h.delete_other l.state k uid c hk.ns hk.name hobject hother
  refine ⟨(l.after server (deletionOf k (some uid))).reported
    (.preconditionFailed k refusal.reason), ?_, hshelf⟩
  rw [Records.delete_sent (hk.deleteRequest _), htext]
  simp only [Except.bind, Records.deleteError, hcode, Option.isSome_some]
  rfl

theorem delete_present (h : KeepsConfigMaps server shelf) (hk : Removable k)
    {uid : Option String} {c : ConfigMap} (hobject : (shelf l.state).objects k = some c)
    (hsame : uid = none ∨ c.metadata.uid = uid) :
    ∃ l', Records.delete server k uid l = (.ok (), l') ∧
      shelf l'.state = (shelf l.state).take k := by
  obtain ⟨hshelf, body, htext, hbody⟩ := h.delete_some l.state k uid c hk.ns hk.name hobject hsame
  refine ⟨l.after server (deletionOf k uid), ?_, hshelf⟩
  rw [Records.delete_sent (hk.deleteRequest _), htext]
  simp only [Except.bind, hbody]

end KeepsConfigMaps

end InitLock.Api
