import InitLock.Proofs.Api.ConfigMap
import InitLock.Proofs.Payload

/-!
# Records read back from the server

A record is sent as the JSON of its ConfigMap, the server sets the uid in the
object's metadata (`stamped`), and what comes back is read as a record
(`readRecord`). Nothing is lost on the way (`lossless`), so the machine that a
record names is the machine it names when it comes back (`holder_survives`).
-/

namespace InitLock

open Json

def Json.Value.member? (key : String) : Value → Option Value
  | .object ms => Members.get? key ms
  | _ => none

def Json.Value.withMember (object : Value) (key : String) (v : Value) : Value :=
  match object with
  | .object ms => .object (Members.set key v ms)
  | other => other

namespace Api

/-- An object as the server returns it: with the uid it has given it, if it has. -/
def stamped : Option String → Value → Value
  | some uid, .object ms =>
    match Members.get? "metadata" ms with
    | some m => .object (Members.set "metadata" (m.withMember "uid" (.text uid)) ms)
    | none => .object ms
  | _, v => v

namespace Metadata

theorem key_of_optional {α : Type} {name : String} {f : α → Value} {o : Option α} :
    ∀ m ∈ optional name f o, m.1 = name := by
  cases o with
  | none => nofun
  | some a => simp [optional]

theorem get?_optional_of_ne {α : Type} {name key : String} {f : α → Value} (h : name ≠ key)
    (o : Option α) (ms : Members) :
    Members.get? key (optional name f o ++ ms) = Members.get? key ms :=
  Members.get?_append ms fun m hm => key_of_optional m hm ▸ h

theorem withMember_uid (m : Metadata) (uid : String) :
    m.toJson.withMember "uid" (.text uid) = ({ m with uid := some uid } : Metadata).toJson := by
  have hpast {α : Type} {name : String} {f : α → Value} {o : Option α}
      (h : compare "uid" name = .gt) (ms : Members) :
      Members.set "uid" (.text uid) (optional name f o ++ ms) =
        optional name f o ++ Members.set "uid" (.text uid) ms :=
    Members.set_append ms fun m hm => key_of_optional m hm ▸ h
  have hlast : Members.set "uid" (.text uid) (optional "uid" .text m.uid) =
      optional "uid" .text (some uid) := by
    cases m.uid with
    | none => rfl
    | some u => simp only [optional, Members.set, Std.ReflOrd.compare_self]
  simp only [toJson_eq, Value.withMember]
  rw [hpast (by decide), hpast (by decide), hpast (by decide), hpast (by decide), hlast]

end Metadata

namespace ConfigMap

theorem member?_metadata (c : ConfigMap) :
    c.toJson.member? "metadata" = some c.metadata.toJson := by
  rw [toJson_eq, Value.member?, Members.get?, if_neg (by decide),
    Metadata.get?_optional_of_ne (by decide)]
  simp only [Members.get?, if_neg (show "kind" ≠ "metadata" by decide), ↓reduceIte]

theorem stamped_toJson (c : ConfigMap) (uid : String) :
    stamped (some uid) c.toJson =
      ({ c with metadata := { c.metadata with uid := some uid } } : ConfigMap).toJson := by
  have hdata (ms : Members) (v : Value) :
      Members.set "metadata" v (Metadata.optional "data" Metadata.texts c.data ++ ms) =
        Metadata.optional "data" Metadata.texts c.data ++ Members.set "metadata" v ms :=
    Members.set_append ms fun m hm => Metadata.key_of_optional m hm ▸ by decide
  have hget := c.member?_metadata
  rw [toJson_eq, Value.member?] at hget
  simp only [toJson_eq, stamped, hget, Metadata.withMember_uid, Members.set, hdata, compare_keys,
    Std.ReflOrd.compare_self]

/-- A record as the server returns it once it has given it a uid, if it has. -/
def wire (uid : Option String) (r : Record) : List Char :=
  (stamped uid (ofRecord r).toJson).compact.toList

def readRecord (key : Key) (body : List Char) : Except Failure Record :=
  (readBody reader body).map (toRecord key)

/-- A record comes back as it was sent, with the uid that the server has given it. -/
theorem readRecord_wire (key : Key) (uid : Option String) (r : Record) :
    readRecord key (wire uid r) = .ok { r with uid := uid } := by
  have hbody : readBody reader (wire uid r) =
      .ok { ofRecord r with metadata := { (ofRecord r).metadata with uid := uid } } := by
    cases uid with
    | none => exact (ofRecord r).readBody_toJson
    | some uid => rw [wire, stamped_toJson, readBody_toJson]
  rw [readRecord, hbody, ← toRecord_ofRecord key]
  rfl

/-- A record comes back as it was sent, whatever it is asked for under, and one that was read from
any ConfigMap comes back as it was read, but for the uid. -/
theorem lossless :
    (∀ (key : Key) (uid : Option String) (r : Record),
      readRecord key (wire uid r) = .ok { r with uid := uid }) ∧
    ∀ (key key' : Key) (body : List Char) (r : Record), readRecord key body = .ok r →
      readRecord key' (wire none r) = .ok { r with uid := none } ∧
        readRecord key' (wire r.uid r) = .ok r := by
  refine ⟨readRecord_wire, fun key key' body r _ => ⟨readRecord_wire key' none r, ?_⟩⟩
  exact readRecord_wire key' r.uid r

/-- A ConfigMap without a name, a namespace or labels, which has two owners and is to be kept. -/
def sparse : Value :=
  .object [("data", .object [("b", .text "\""), ("a", .text "\\")]), ("immutable", .bool true),
    ("metadata", .object [("finalizers", .list [.text "hold"]), ("labels", .null),
      ("ownerReferences", .list
        [.object [("controller", .bool false), ("name", .text "prod"), ("uid", .text "1")],
          .object [("uid", .text "2")]]),
      ("uid", .text "u")])]

/-- The record that is read from it under the key `ns/c`. -/
def sparseRecord : Record where
  ns := "ns"
  name := "c"
  uid := some "u"
  labels := .empty
  owner := some ⟨"", "", "prod", "1", some false, none⟩
  data := .ofList [("a", "\\"), ("b", "\"")]

theorem lossless_sparse :
    readRecord ⟨"ns", "c"⟩ sparse.compact.toList = .ok sparseRecord ∧
      readRecord ⟨"", ""⟩ (wire none sparseRecord) = .ok { sparseRecord with uid := none } ∧
      readRecord ⟨"", ""⟩ (wire (some "u") sparseRecord) = .ok sparseRecord := by
  have hread : readRecord ⟨"ns", "c"⟩ sparse.compact.toList = .ok sparseRecord := by
    decide +kernel
  exact ⟨hread, lossless.2 _ ⟨"", ""⟩ _ _ hread⟩

end ConfigMap

/-- A record that is to name a machine names it, also when it comes back from the server; without
a name of the machine the record names none. The payload tells which machine it is. -/
theorem holder_survives (machine : String) (cluster : Cluster) (name : String) :
    (Record.naming machine cluster name).holder =
      (if machine = "" then .error (.emptyName name) else .ok machine) ∧
    (∀ (key : Key) (uid : Option String),
      (ConfigMap.readRecord key (ConfigMap.wire uid (.naming machine cluster name))).map
          Record.holder =
        .ok (if machine = "" then .error (.emptyName name) else .ok machine)) ∧
    ∀ (machine' : String) (cluster' : Cluster) (name' : String),
      (Record.naming machine' cluster' name').payload? =
        (Record.naming machine cluster name).payload? ↔ machine' = machine := by
  refine ⟨Record.holder_naming_eq .., fun key uid => ?_, fun machine' cluster' name' => ?_⟩
  · rw [ConfigMap.readRecord_wire, Except.map, Record.holder_withUid, Record.holder_naming_eq]
  · rw [Record.payload?_naming, Record.payload?_naming, Option.some.injEq, Holder.payload_inj]

end Api

end InitLock
