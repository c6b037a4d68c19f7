import InitLock.Proofs.Api.Machines
import InitLock.Proofs.Api.Records
import InitLock.Proofs.Store.Memory
import InitLock.Proofs.Text.Utf8

/-!
# A server with a table of ConfigMaps

The plainest server that keeps ConfigMaps (`Cabinet.keeps`): it finds them in a
table by the namespace and the name in the address, and numbers their uids.
-/

namespace InitLock.Api

open Json (Value)
open Machines (jsonAnswer missing)
open Store (Memory)

/-- ConfigMaps by their keys, and how many uids have been given. -/
structure Cabinet where
  objects : Table Key ConfigMap
  assigned : Nat

namespace Cabinet

/-! ## Addresses -/

/-- The key of the object at an address, without the query. -/
def keyAt (uri : String) : Key :=
  let place := uri.toList.drop "/api/v1/namespaces/".length
  let rest := (place.dropWhile (· ≠ '/')).drop "/configmaps/".length
  ⟨String.ofList (place.takeWhile (· ≠ '/')), String.ofList (rest.takeWhile (· ≠ '?'))⟩

/-! ## Answers -/

/-- The answer that the object is there already, or has another uid. -/
def conflicting (reason : String) : Answer :=
  jsonAnswer 409 (.object [("status", .text "Failure"), ("reason", .text reason),
    ("code", .number (.whole 409))])

def gone : Answer :=
  jsonAnswer 200 (.object [("kind", .text "Status"), ("status", .text "Success")])

def unreadable : Answer :=
  jsonAnswer 400 (.object [("status", .text "Failure"), ("code", .number (.whole 400))])

/-! ## Requests -/

def create (s : Cabinet) (ns : String) (body : Value) : Answer × Cabinet :=
  match readBody ConfigMap.reader body.compact.toList with
  | .error _ => (unreadable, s)
  | .ok c =>
    let k : Key := ⟨ns, c.metadata.name.getD ""⟩
    match s.objects.get? k with
    | some _ => (conflicting "AlreadyExists", s)
    | none =>
      let c := c.withUid (Memory.uid (s.assigned + 1))
      (jsonAnswer 201 c.toJson, ⟨s.objects.insert k c, s.assigned + 1⟩)

def requiredUid : Value → Option String
  | .object [(_, .object [(_, .text uid)])] => some uid
  | _ => none

def delete (s : Cabinet) (k : Key) (required : Option String) : Answer × Cabinet :=
  match s.objects.get? k with
  | none => (missing, s)
  | some c =>
    if required = none ∨ c.metadata.uid = required then
      (gone, { s with objects := s.objects.erase k })
    else (conflicting "Conflict", s)

/-- The server. What is neither posted nor deleted is read. -/
def server : Server Cabinet := fun q s =>
  match q.method, q.body with
  | .post, some body => s.create (keyAt q.uri).ns body
  | .delete, body => s.delete (keyAt q.uri) (body.bind requiredUid)
  | _, _ =>
    match s.objects.get? (keyAt q.uri) with
    | some c => (jsonAnswer 200 c.toJson, s)
    | none => (missing, s)

def shelf (s : Cabinet) : Shelf where
  objects := s.objects.get?
  given u := ∃ n ≤ s.assigned, u = Memory.uid n

/-! ## What comes back -/

theorem address_append (ns t : String) :
    Records.address ns ++ t = "/api/v1/namespaces/" ++ (ns ++ "/" ++ ("configmaps" ++ t)) := by
  have hprefix : ("/api/" : String) ++ ConfigMap.apiVersion ++ "/namespaces/" =
      "/api/v1/namespaces/" := by decide
  rw [Records.address, collection, if_pos rfl, hprefix]
  simp only [String.append_assoc]

theorem drop_length (s t : String) : (s ++ t).toList.drop s.length = t.toList := by
  rw [String.toList_append, ← String.length_toList, List.drop_left]

theorem keyAt_place {ns t : String} (hns : UrlSafe ns) :
    keyAt ("/api/v1/namespaces/" ++ (ns ++ "/" ++ t)) =
      ⟨ns, String.ofList ((t.toList.drop "configmaps/".length).takeWhile (· ≠ '?'))⟩ := by
  have hslash := slash_not_mem hns
  simp only [keyAt, drop_length, takeWhile_slash hslash, dropWhile_slash hslash,
    String.ofList_toList]
  rfl

theorem keyAt_recordAddress {k : Key} {t : String} (hns : UrlSafe k.ns) (hname : UrlSafe k.name)
    (ht : t.toList.takeWhile (· ≠ '?') = []) : keyAt (recordAddress k ++ t) = k := by
  have hsafe : ∀ c ∈ k.name.toList, decide (c ≠ '?') = true := fun c hc =>
    decide_eq_true fun he => not_mem_of_urlSafe hname (by decide) (he ▸ hc)
  have htext : recordAddress k ++ t =
      "/api/v1/namespaces/" ++ (k.ns ++ "/" ++ ("configmaps/" ++ (k.name ++ t))) := by
    have hslash : ("configmaps/" : String) = "configmaps" ++ "/" := by decide
    rw [recordAddress, String.append_assoc, String.append_assoc, address_append, hslash]
    simp only [String.append_assoc]
  rw [htext, keyAt_place hns, drop_length, String.toList_append,
    List.takeWhile_append_of_pos hsafe, ht, List.append_nil, String.ofList_toList]

theorem keyAt_address {ns query : String} (hns : UrlSafe ns) :
    (keyAt (Records.address ns ++ "?" ++ query)).ns = ns := by
  rw [String.append_assoc, address_append, keyAt_place hns]

theorem jsonAnswer_text {status : Nat} (h : ¬ (400 ≤ status ∧ status < 600)) (v : Value) :
    (jsonAnswer status v).text = .ok (v.write none) := by
  simp only [jsonAnswer, Answer.text, Text.decodeUtf8_utf8, h, ↓reduceIte]

theorem conflicting_text (reason : String) (h : reason = "AlreadyExists" ∨ reason = "Conflict") :
    (conflicting reason).text = .error (.refused ⟨"Failure", "", reason, 409⟩) := by
  rcases h with rfl | rfl <;> decide +kernel

theorem read_gone : ∃ cs, gone.text = .ok cs ∧ readDeleted ConfigMap.reader cs = .ok () := by
  have hread : gone.text.bind (readDeleted ConfigMap.reader) = .ok () := by decide +kernel
  generalize gone.text = answer at hread
  cases answer with
  | ok cs => exact ⟨cs, rfl, hread⟩
  | error => cases hread

theorem read_toJson {status : Nat} (h : ¬ (400 ≤ status ∧ status < 600)) (c : ConfigMap) :
    (jsonAnswer status c.toJson).text.bind (readBody ConfigMap.reader) = .ok c := by
  have := c.readBody_toJson
  rw [Json.Value.compact, String.toList_ofList] at this
  rw [jsonAnswer_text h]
  exact this

theorem requiredUid_deleteBody (uid : Option String) :
    requiredUid (Records.deleteBody uid) = uid := by
  cases uid <;> rfl

/-! ## What is kept -/

variable {s : Cabinet} {k : Key} {c : ConfigMap}

theorem server_reading (s : Cabinet) (hns : UrlSafe k.ns) (hname : UrlSafe k.name) :
    server (readingOf k) s =
      match s.objects.get? k with
      | some c => (jsonAnswer 200 c.toJson, s)
      | none => (missing, s) := by
  have hkey : keyAt (recordAddress k) = k := by
    have := keyAt_recordAddress (t := "") hns hname rfl
    rwa [String.append_empty] at this
  simp only [server, readingOf, hkey]

theorem server_creation {manager : String} {r : Record} (s : Cabinet) (hns : UrlSafe r.ns) :
    server (creationOf manager r) s =
      match s.objects.get? r.key with
      | some _ => (conflicting "AlreadyExists", s)
      | none =>
        let c := (ConfigMap.ofRecord r).withUid (Memory.uid (s.assigned + 1))
        (jsonAnswer 201 c.toJson, ⟨s.objects.insert r.key c, s.assigned + 1⟩) := by
  simp only [server, creationOf, create, (ConfigMap.ofRecord r).readBody_toJson, keyAt_address hns]
  rfl

theorem server_deletion (s : Cabinet) (uid : Option String) (hns : UrlSafe k.ns)
    (hname : UrlSafe k.name) : server (deletionOf k uid) s = s.delete k uid := by
  simp only [server, deletionOf, keyAt_recordAddress (t := "?") hns hname rfl,
    Option.bind_some, requiredUid_deleteBody]

theorem shelf_create (s : Cabinet) (k : Key) (c : ConfigMap) :
    shelf ⟨s.objects.insert k (c.withUid (Memory.uid (s.assigned + 1))), s.assigned + 1⟩ =
      (shelf s).put k c (Memory.uid (s.assigned + 1)) := by
  simp only [shelf, Shelf.put, Shelf.mk.injEq]
  refine ⟨funext fun k' => Table.get?_insert .., funext fun u => propext ⟨?_, ?_⟩⟩
  · rintro ⟨n, hn, rfl⟩
    rcases Nat.lt_or_eq_of_le hn with hn | rfl
    · exact .inr ⟨n, Nat.le_of_lt_succ hn, rfl⟩
    · exact .inl rfl
  · rintro (rfl | ⟨n, hn, rfl⟩)
    · exact ⟨_, Nat.le_refl _, rfl⟩
    · exact ⟨n, Nat.le_succ_of_le hn, rfl⟩

theorem shelf_erase (s : Cabinet) (k : Key) :
    shelf { s with objects := s.objects.erase k } = (shelf s).take k := by
  simp only [shelf, Shelf.take, Shelf.mk.injEq, and_true]
  exact funext fun k' => Table.get?_erase ..

theorem keeps : KeepsConfigMaps server shelf where
  read_steady s k hns hname := by
    rw [server_reading s hns hname]
    split <;> rfl
  read_some s k c hns hname hc := by
    rw [Server.read, server_reading s hns hname]
    simp only [show s.objects.get? k = some c from hc]
    exact read_toJson (by decide) c
  read_none s k hns hname hnone := by
    refine ⟨⟨"Failure", "", "", 404⟩, ?_, rfl⟩
    rw [server_reading s hns hname]
    simp only [show s.objects.get? k = none from hnone]
    exact Machines.missing_text
  create_some s manager r c _ hns _ hc := by
    rw [Server.Refuses, server_creation s hns]
    simp only [show s.objects.get? r.key = some c from hc]
    exact ⟨trivial, ⟨"Failure", "", "AlreadyExists", 409⟩,
      conflicting_text "AlreadyExists" (.inl rfl), rfl, rfl⟩
  create_none s manager r _ hns _ hnone := by
    refine ⟨Memory.uid (s.assigned + 1), ?_, ?_⟩
    · rintro ⟨n, hn, he⟩
      exact absurd (Memory.uid_inj he) (by omega)
    · rw [Server.read, server_creation s hns]
      simp only [show s.objects.get? r.key = none from hnone]
      exact ⟨shelf_create s r.key _, read_toJson (by decide) _⟩
  delete_none s k uid hns hname hnone := by
    rw [Server.Misses, server_deletion s uid hns hname]
    simp only [delete, show s.objects.get? k = none from hnone]
    exact ⟨trivial, ⟨"Failure", "", "", 404⟩, Machines.missing_text, rfl⟩
  delete_other s k uid c hns hname hc hother := by
    have hnot : ¬ (some uid = none ∨ c.metadata.uid = some uid) :=
      not_or.2 ⟨Option.some_ne_none _, hother⟩
    have hdelete : s.delete k (some uid) = (conflicting "Conflict", s) := by
      simp only [delete, show s.objects.get? k = some c from hc, if_neg hnot]
    simp only [Server.Refuses]
    rw [server_deletion s _ hns hname, hdelete]
    exact ⟨rfl, "Conflict", ⟨"Failure", "", "Conflict", 409⟩,
      conflicting_text "Conflict" (.inr rfl), rfl, rfl⟩
  delete_some s k uid c hns hname hc hsame := by
    rw [server_deletion s uid hns hname]
    simp only [delete, show s.objects.get? k = some c from hc, if_pos hsame]
    exact ⟨shelf_erase s k, read_gone⟩

end Cabinet

end InitLock.Api
