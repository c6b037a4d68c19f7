import InitLock.Api.Object
import InitLock.Command.Run
import InitLock.Proofs.Api.RoundTrip
import InitLock.Proofs.Api.Writes

/-!
# The owner of a created record

A lock record belongs to its cluster, so that it goes when the cluster goes. The
body of a POST has the cluster for its only owner if the cluster has a uid, and
has no owner if it has none (`Owned`). Where the uid comes from, an option of the
command line or the metadata of an object, nothing looks at what is in it: an
empty one makes an owner that the server refuses.
-/

namespace InitLock

namespace Api

open Json Mutex

namespace Metadata

theorem get?_optional_self {α : Type} {name : String} {f : α → Value} (o : Option α)
    (ms : Members) :
    Members.get? name (optional name f o ++ ms) = (o.map f).or (Members.get? name ms) := by
  cases o <;> simp [optional, Members.get?]

theorem ns_toJson (m : Metadata) : m.toJson.member? "namespace" = m.ns.map .text := by
  rw [toJson_eq, Value.member?, get?_optional_of_ne (by decide), get?_optional_of_ne (by decide),
    get?_optional_self, get?_optional_of_ne (by decide), ← List.append_nil (optional "uid" _ _),
    get?_optional_of_ne (by decide)]
  exact Option.or_none

theorem owners_toJson (m : Metadata) :
    m.toJson.member? "ownerReferences" = m.owners.map fun os => .list (os.map ownerJson) := by
  rw [toJson_eq, Value.member?, get?_optional_of_ne (by decide), get?_optional_of_ne (by decide),
    get?_optional_of_ne (by decide), get?_optional_self, ← List.append_nil (optional "uid" _ _),
    get?_optional_of_ne (by decide)]
  exact Option.or_none

end Metadata

/-! ## What the body of a POST says -/

def metadata? (key : String) (body : Value) : Option Value :=
  (body.member? "metadata").bind (·.member? key)

def owners? (body : Value) : Option Value := metadata? "ownerReferences" body

def uid? (owner : Value) : Option String :=
  match owner.member? "uid" with
  | some (.text uid) => some uid
  | _ => none

/-- Whether the server takes the owners of an object: it refuses those without a uid. -/
def OwnersUsable (body : Value) : Prop :=
  ∀ os, owners? body = some (.list os) → ∀ o ∈ os, ∃ uid, uid? o = some uid ∧ uid ≠ ""

def reference (c : Cluster) (uid : String) : Value :=
  .object [("apiVersion", .text c.apiVersion), ("kind", .text c.kind), ("name", .text c.name),
    ("uid", .text uid)]

/-- The object lives in the namespace of the cluster, and the cluster is its only owner. Without a
uid of the cluster it has none. -/
structure Owned (c : Cluster) (body : Value) : Prop where
  ns : metadata? "namespace" body = some (.text c.ns)
  owners : owners? body = c.uid.map fun uid => .list [reference c uid]

/-- The server takes the owners of such an object unless the uid of the cluster is empty. -/
theorem Owned.usable_iff {c : Cluster} {body : Value} (h : Owned c body) :
    OwnersUsable body ↔ c.uid ≠ some "" := by
  rw [OwnersUsable, h.owners]
  cases c.uid with
  | none => simp
  | some uid =>
    have huid : uid? (reference c uid) = some uid := by
      simp [uid?, reference, Value.member?, Members.get?]
    simp [huid]

theorem metadata?_toJson (key : String) (c : ConfigMap) :
    metadata? key c.toJson = c.metadata.toJson.member? key := by
  rw [metadata?, c.member?_metadata]
  rfl

theorem owned_naming (machine : String) (c : Cluster) (name : String) :
    Owned c (ConfigMap.ofRecord (.naming machine c name)).toJson where
  ns := by
    rw [metadata?_toJson, Metadata.ns_toJson]
    rfl
  owners := by
    have hreference (uid : String) :
        Metadata.ownerJson ⟨c.apiVersion, c.kind, c.name, uid, none, none⟩ = reference c uid :=
      Metadata.ownerJson_eq _
    rw [owners?, metadata?_toJson, Metadata.owners_toJson]
    simp only [ConfigMap.ofRecord, Record.naming, Cluster.owner, Option.map_map]
    exact congrArg (Option.map · c.uid) (funext fun uid => by simp [hreference])

/-! ## Lock calls -/

section
variable {σ : Type} {server : Server σ} {manager : String}

/-- A POST of a lock call carries the ConfigMap of the call's own record. -/
theorem body_of_post {t : Task} {vs : List (Visit σ)} {v : Visit σ} {q : Request} {b : Bool}
    (h : LockTraffic server manager t vs b) (hv : v ∈ vs) (hq : q ∈ v.sent)
    (hm : q.method = .post) :
    q.body = some (ConfigMap.ofRecord t.newRecord).toJson ∧
      uriOf (Records.address t.newRecord.ns ++ "?&fieldManager=" ++ Text.formEncode manager) =
        .ok q.uri := by
  obtain ⟨past, rest, hvs⟩ := List.append_of_mem hv
  obtain ⟨hcreate, -, -⟩ := h.post hvs hq hm
  unfold Records.createRequest at hcreate
  split at hcreate
  · cases hcreate
  · obtain ⟨uri, huri, rfl⟩ := Request.of_to hcreate
    exact ⟨rfl, huri⟩

end

/-- What a lock call sends to create is an object in the namespace of the cluster, which is its only
owner if it has a uid. The server takes it unless that uid is empty. -/
theorem post_owned {σ : Type} (server : Server σ) (s : Remote σ) (machine : String)
    (cluster : Cluster) (config : Config) (cancellable : Bool) :
    let run := Remote.call server ⟨.lock machine, cluster, config, cancellable⟩ s
    ∃ qs, run.state.link.sent = s.link.sent ++ qs ∧
      ∀ q ∈ qs, q.method = .post → ∃ body, q.body = some body ∧
        uriOf (Records.address cluster.ns ++ "?&fieldManager=" ++
          Text.formEncode config.fieldManager) = .ok q.uri ∧
        Owned cluster body ∧ (OwnersUsable body ↔ cluster.uid ≠ some "") := by
  intro run
  obtain ⟨o, vs, -, hvs, hp⟩ :=
    Remote.call_visits server ⟨.lock machine, cluster, config, cancellable⟩ s
  obtain ⟨b, -, htraffic⟩ := LockTraffic.of_path rfl (fun v hv => hvs.made hv) hp
  refine ⟨vs.flatMap (·.sent), hvs.sent_eq, fun q hq hm => ?_⟩
  obtain ⟨v, hv, hq⟩ := List.mem_flatMap.1 hq
  obtain ⟨hbody, huri⟩ := body_of_post htraffic hv hq hm
  have howned := owned_naming machine cluster (config.lockName cluster)
  exact ⟨_, hbody, huri, howned, howned.usable_iff⟩

/-- The uids of the owners of each object that a call sends to create, when it finds no record and
hears no more. -/
def postedUids (t : Task) : List (List (Option String)) :=
  let run := Remote.call replay t ⟨Link.fresh [Machines.missing], none⟩
  let bodies := (run.state.link.sent.filter (·.method = .post)).filterMap (·.body)
  bodies.map fun body =>
    match owners? body with
    | some (.list os) => os.map uid?
    | _ => []

/-- What a command line that gives an empty uid comes to. -/
def unidentified : Command.Invocation :=
  ⟨none, .text, "eksa-system", .lock "m", "c", "default", some ""⟩

/-- A cluster object whose uid is empty. -/
def blank : Value :=
  .object [("apiVersion", .text "cluster.x-k8s.io/v1beta1"), ("kind", .text "Cluster"),
    ("metadata", .object [("name", .text "c"), ("namespace", .text "ns"), ("uid", .text "")])]

def blankCluster : Cluster := ⟨"ns", "c", some "", "cluster.x-k8s.io/v1beta1", "Cluster"⟩

/-- An empty option and an empty uid of an object both make an owner with an empty uid. -/
theorem post_owned_empty :
    Command.parse ⟨none, none, none⟩
        ["lock", "--cluster", "c", "--machine", "m", "--cluster-uid", ""] = .ok unidentified ∧
    (Object.reader.document blank.compact.toList).toOption.map Object.toCluster =
      some (.ok blankCluster) ∧
    postedUids unidentified.task = [[some ""]] ∧
    postedUids ⟨.lock "m", blankCluster, .default, false⟩ = [[some ""]] := by
  decide +kernel

end Api

end InitLock
