import InitLock.Cluster
import InitLock.Key

/-!
# Configuration

How lock records are named and where the machines that hold locks are looked up.
-/

namespace InitLock

structure Config where
  holderNs : Option String
  suffix : String
  fieldManager : String
  deriving DecidableEq, Repr

namespace Config

def defaultHolderNs : String := "eksa-system"

def default : Config := ⟨some defaultHolderNs, "-etcd-lock", "etcdadm-bootstrap-provider"⟩

/-- Looks machines up in the given namespace. -/
def withHolderNs (ns : String) (c : Config) : Config := { c with holderNs := some ns }

/-- Looks machines up in their cluster's own namespace. -/
def clusterScoped (c : Config) : Config := { c with holderNs := none }

def withSuffix (suffix : String) (c : Config) : Config := { c with suffix := suffix }

def withFieldManager (manager : String) (c : Config) : Config := { c with fieldManager := manager }

def lockName (c : Config) (cluster : Cluster) : String := cluster.name ++ c.suffix

def lockKey (c : Config) (cluster : Cluster) : Key := ⟨cluster.ns, c.lockName cluster⟩

def lookupNs (c : Config) (cluster : Cluster) : String := c.holderNs.getD cluster.ns

end Config

end InitLock
