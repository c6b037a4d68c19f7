import InitLock.Api.Metadata
import InitLock.Error

/-!
# Objects of any kind

An object read without knowing its kind: its metadata, and its version and kind
if both are texts. A cluster is referred to by the object it is.
-/

namespace InitLock.Api

open Json Json.Reader

/-- The version and kind an object is of. -/
structure TypeMeta where
  apiVersion : String
  kind : String
  deriving DecidableEq, Repr

/-- An object of any kind. -/
structure Object where
  types : Option TypeMeta
  metadata : Metadata
  deriving DecidableEq

namespace Object

/-- What has been read of an object: its metadata, and all other members in reverse order. -/
structure Partial where
  metadata : Option Metadata
  others : List (String × Value)

/-- A member of an object. The metadata may be given once. -/
def member (name : String) (p : Partial) : Member Partial :=
  if name = "metadata" then
    if p.metadata.isSome then .refuse (.duplicateMember "metadata")
    else .take (Metadata.reader.map fun m => { p with metadata := some m })
  else .take (any.map fun v => { p with others := (name, v) :: p.others })

def oneText (name : String) (members : List (String × Value)) : Option String :=
  match members.filter fun m => m.1 = name with
  | [(_, .text s)] => some s
  | _ => none

def finish (p : Partial) : Object where
  types :=
    match oneText "apiVersion" p.others, oneText "kind" p.others with
    | some apiVersion, some kind => some ⟨apiVersion, kind⟩
    | _, _ => none
  metadata := p.metadata.getD .empty

def reader : Reader Object :=
  objectOr "struct DynamicObject" none member (fun p => .ok (finish p)) ⟨none, []⟩

def toCluster (o : Object) : Except Error Cluster :=
  match o.types with
  | none => .error (.unexpectedKind Cluster.clusterKind "object without type metadata")
  | some t =>
    if t.kind ≠ Cluster.clusterKind then .error (.unexpectedKind Cluster.clusterKind t.kind)
    else
      match o.metadata.name, o.metadata.ns with
      | none, _ => .error (.validation "Cluster has no name" (some "metadata.name"))
      | some _, none => .error (.validation "Cluster has no namespace" (some "metadata.namespace"))
      | some name, some ns => .ok ⟨ns, name, o.metadata.uid, t.apiVersion, t.kind⟩

end Object

end InitLock.Api
