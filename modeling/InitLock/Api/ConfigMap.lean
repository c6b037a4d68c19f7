import InitLock.Api.Metadata
import InitLock.Record

/-!
# ConfigMaps

The object a lock record is kept as: the record's key, labels and owner are its
metadata, its data the object's.
-/

namespace InitLock.Api

open Json Json.Reader

structure ConfigMap where
  metadata : Metadata
  data : Option (Table String String)
  deriving DecidableEq

namespace ConfigMap

def kindName : String := "ConfigMap"

def apiVersion : String := "v1"

def ofRecord (r : Record) : ConfigMap where
  metadata :=
    { name := some r.name
      ns := some r.ns
      uid := none
      labels := if r.labels.isEmpty then none else some r.labels
      owners := r.owner.map fun o => [o] }
  data := some r.data

/-- The record kept in a ConfigMap that was found under `key`. The key stands in for a name or a
namespace that the object does not give. -/
def toRecord (key : Key) (c : ConfigMap) : Record where
  ns := c.metadata.ns.getD key.ns
  name := c.metadata.name.getD key.name
  uid := c.metadata.uid
  labels := c.metadata.labels.getD .empty
  owner := (c.metadata.owners.getD []).head?
  data := c.data.getD .empty

def bytes : Reader Unit := textOf "a base64-encoded string" Text.checkBase64

def member (name : String) (c : ConfigMap) : Member ConfigMap :=
  match name with
  | "apiVersion" => Metadata.ignoring (exactly apiVersion) c
  | "kind" => Metadata.ignoring (exactly kindName) c
  | "metadata" =>
    .take ((nullable Metadata.reader).map fun m => { c with metadata := m.getD .empty })
  | "data" => .take ((nullable (dict text)).map fun es => { c with data := es.map Table.ofList })
  | "binaryData" => Metadata.ignoring (nullable (dict (nullable bytes))) c
  | "immutable" => Metadata.ignoring (nullable boolean) c
  | _ => .skip

/-- Reads a ConfigMap. Its version and kind may be left out, but not be others. -/
def reader : Reader ConfigMap := object kindName member ⟨.empty, none⟩

def toJson (c : ConfigMap) : Value :=
  .record <|
    [("apiVersion", .text apiVersion), ("kind", .text kindName),
      ("metadata", c.metadata.toJson)] ++
    Metadata.optional "data" Metadata.texts c.data

end ConfigMap

end InitLock.Api
