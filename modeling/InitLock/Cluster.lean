/-!
# Clusters

A reference to the cluster whose initialization a lock guards.
-/

namespace InitLock

/-- A reference from an object to the one that owns it. -/
structure Owner where
  apiVersion : String
  kind : String
  name : String
  uid : String
  controller : Option Bool
  blockDeletion : Option Bool
  deriving DecidableEq, Repr

/-- A reference to a cluster. -/
structure Cluster where
  ns : String
  name : String
  uid : Option String
  apiVersion : String
  kind : String
  deriving DecidableEq, Repr

namespace Cluster

def group : String := "cluster.x-k8s.io"

/-- The version a cluster is referred to by unless its object says otherwise. -/
def defaultApiVersion : String := "cluster.x-k8s.io/v1beta2"

def clusterKind : String := "Cluster"

def named (ns name : String) (uid : Option String) : Cluster :=
  ⟨ns, name, uid, defaultApiVersion, clusterKind⟩

/-- The owner reference to a cluster, which needs its uid. -/
def owner (c : Cluster) : Option Owner :=
  c.uid.map fun uid => ⟨c.apiVersion, c.kind, c.name, uid, none, none⟩

def path (c : Cluster) : String := c.ns ++ "/" ++ c.name

end Cluster

end InitLock
