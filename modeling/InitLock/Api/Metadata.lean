import InitLock.Cluster
import InitLock.Json.Printer
import InitLock.Json.Reader
import InitLock.Table
import InitLock.Text.Base64
import InitLock.Text.Timestamp

/-!
# Object metadata

The part of an object that names it. All members are optional; those the lock
does not use are checked for their types and dropped.
-/

namespace InitLock.Api

open Json Json.Reader

structure Metadata where
  name : Option String
  ns : Option String
  uid : Option String
  labels : Option (Table String String)
  owners : Option (List Owner)
  deriving DecidableEq

namespace Metadata

def empty : Metadata := ⟨none, none, none, none, none⟩

/-- Reads a member for its type alone. -/
def ignoring {α σ : Type} (r : Reader α) (s : σ) : Member σ := .take (r.map fun _ => s)

/-- A 64-bit whole number. -/
def whole : Reader Int := integer "i64" (-0x8000000000000000) 0x7fffffffffffffff

def timestamp : Reader Unit :=
  textOf "an RFC 3339 formatted date and time string" Text.Timestamp.check

def ownerMember (name : String) (o : Owner) : Member Owner :=
  match name with
  | "apiVersion" => .take ((nullable text).map fun s => { o with apiVersion := s.getD "" })
  | "kind" => .take ((nullable text).map fun s => { o with kind := s.getD "" })
  | "name" => .take ((nullable text).map fun s => { o with name := s.getD "" })
  | "uid" => .take ((nullable text).map fun s => { o with uid := s.getD "" })
  | "controller" => .take ((nullable boolean).map fun b => { o with controller := b })
  | "blockOwnerDeletion" => .take ((nullable boolean).map fun b => { o with blockDeletion := b })
  | _ => .skip

/-- Reads an owner reference; a missing text is empty. -/
def owner : Reader Owner :=
  object "OwnerReference" ownerMember ⟨"", "", "", "", none, none⟩

def managerMember (name : String) (u : Unit) : Member Unit :=
  match name with
  | "apiVersion" | "fieldsType" | "manager" | "operation" | "subresource" =>
    ignoring (nullable text) u
  | "fieldsV1" => ignoring any u
  | "time" => ignoring (nullable timestamp) u
  | _ => .skip

def member (name : String) (m : Metadata) : Member Metadata :=
  match name with
  | "name" => .take ((nullable text).map fun s => { m with name := s })
  | "namespace" => .take ((nullable text).map fun s => { m with ns := s })
  | "uid" => .take ((nullable text).map fun s => { m with uid := s })
  | "labels" =>
    .take ((nullable (dict text)).map fun es => { m with labels := es.map Table.ofList })
  | "ownerReferences" => .take ((nullable (list owner)).map fun os => { m with owners := os })
  | "annotations" => ignoring (nullable (dict text)) m
  | "creationTimestamp" | "deletionTimestamp" => ignoring (nullable timestamp) m
  | "deletionGracePeriodSeconds" | "generation" => ignoring (nullable whole) m
  | "finalizers" => ignoring (nullable (list text)) m
  | "generateName" | "resourceVersion" | "selfLink" => ignoring (nullable text) m
  | "managedFields" =>
    ignoring (nullable (list (object "ManagedFieldsEntry" managerMember ()))) m
  | _ => .skip

def reader : Reader Metadata := object "ObjectMeta" member empty

/-! ## Writing -/

def optional {α : Type} (name : String) (f : α → Value) : Option α → List (String × Value)
  | some a => [(name, f a)]
  | none => []

def texts (t : Table String String) : Value :=
  .object (t.entries.map fun e => (e.1, .text e.2))

def ownerJson (o : Owner) : Value :=
  .record <|
    [("apiVersion", .text o.apiVersion), ("kind", .text o.kind), ("name", .text o.name),
      ("uid", .text o.uid)] ++
    optional "controller" .bool o.controller ++
    optional "blockOwnerDeletion" .bool o.blockDeletion

def toJson (m : Metadata) : Value :=
  .record <|
    optional "name" .text m.name ++ optional "namespace" .text m.ns ++
    optional "uid" .text m.uid ++ optional "labels" texts m.labels ++
    optional "ownerReferences" (fun os => .list (os.map ownerJson)) m.owners

end Metadata

end InitLock.Api
