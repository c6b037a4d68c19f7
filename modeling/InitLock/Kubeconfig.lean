import InitLock.Api.Address
import InitLock.Files
import InitLock.Pem
import InitLock.Yaml.Fault

/-!
# Kubeconfigs

A kubeconfig names clusters, users and contexts, and the context to use.
Several of them merge into one: what an earlier one sets stays, and of the named
entries those with new names are added. The context to use says which cluster
to talk to, as which user, and which namespace is the default.
-/

namespace InitLock

namespace Kubeconfig

/-- A certificate or a key: in base64, or in a file. What is given in base64 goes first. -/
structure Material where
  data : Option String
  file : Option String
  deriving DecidableEq, Repr

/-- A context: the name of its cluster and of its user, and its namespace. -/
structure Context where
  cluster : String
  user : Option String
  ns : Option String
  deriving DecidableEq, Repr

/-- What a kubeconfig says of a cluster: the address of its server, the certificates it is trusted
by, the proxy in front of it, and the name its certificate is for. -/
structure Cluster where
  server : Option String
  authority : Material
  proxy : Option String
  serverName : Option String
  deriving DecidableEq, Repr

/-- A service that gives out credentials, and its settings. -/
structure Provider where
  name : String
  settings : List (String × String)
  deriving DecidableEq, Repr

/-- A setting of a service; of several of one name the last counts. -/
def Provider.setting? (p : Provider) (name : String) : Option String :=
  p.settings.reverse.lookup name

/-- A program that gives out credentials, its arguments and its environment. It may need to know
about the cluster. -/
structure Plugin where
  program : Option String
  arguments : List String
  environment : List (String × String)
  needsCluster : Bool
  deriving DecidableEq, Repr

/-- What a kubeconfig says of a user: the credentials, and in whose name requests are made. -/
structure User where
  name : Option String
  password : Option String
  token : Option String
  tokenFile : Option String
  certificate : Material
  key : Material
  impersonated : Option String
  groups : List String
  provider : Option Provider
  plugin : Option Plugin
  deriving DecidableEq, Repr

end Kubeconfig

/-- A kubeconfig. An entry may be named and left out. -/
structure Kubeconfig where
  kind : Option String
  apiVersion : Option String
  current : Option String
  contexts : List (String × Option Kubeconfig.Context)
  clusters : List (String × Option Kubeconfig.Cluster)
  users : List (String × Option Kubeconfig.User)
  deriving DecidableEq, Repr

/-- A server to talk to, how and as whom, and the namespace that counts where none is given. The
certificates it is trusted by are those of the system unless some are given. -/
structure Endpoint where
  address : Api.Address
  ns : String
  certificates : Option (List (List UInt8))
  proxy : Option Api.Address
  serverName : Option String
  user : Kubeconfig.User
  deriving DecidableEq, Repr

namespace Kubeconfig

def empty : Kubeconfig := ⟨none, none, none, [], [], []⟩

def User.unknown : User :=
  ⟨none, none, none, none, ⟨none, none⟩, ⟨none, none⟩, none, [], none, none⟩

inductive Fault where
  | unreadable (path : String) (why : FileFault)
  | malformed (fault : Yaml.Fault)
  | misfit (message : String)
  | kinds
  | apiVersions
  | noHome
  | noCurrent
  | noContext (name : String)
  | noCluster (name : String)
  | noServer
  | badServer (flaw : Api.UriFlaw)
  | noAuthority
  | badAuthority (flaw : Pem.Flaw)
  | badProxy (flaw : Api.UriFlaw)
  deriving DecidableEq, Repr

namespace Fault

def message : Fault → String
  | unreadable path why =>
    "failed to read kubeconfig from '" ++ Text.quoted path ++ "': " ++ why.message
  | malformed fault => "failed to parse kubeconfig YAML: " ++ fault.message
  | misfit message => "the structure of the parsed kubeconfig is invalid: " ++ message
  | kinds => "kubeconfigs with mismatching kind cannot be merged"
  | apiVersions => "kubeconfigs with mismatching api version cannot be merged"
  | noHome => "failed to find the path of kubeconfig"
  | noCurrent => "failed to determine current context"
  | noContext name => "failed to load current context: " ++ name
  | noCluster name => "failed to load the cluster of context: " ++ name
  | noServer => "cluster url is missing on selected cluster"
  | badServer flaw => "failed to parse cluster url: " ++ flaw.message
  | noAuthority => "failed to load certificate authority"
  | badAuthority flaw => "failed to parse PEM-encoded certificates: " ++ flaw.message
  | badProxy flaw => "failed to parse proxy url: " ++ flaw.message

end Fault

/-! ## Certificates and keys -/

namespace Material

def isGiven (m : Material) : Bool := m.data.isSome || m.file.isSome

/-- The bytes with a line feed at the end, unless there are none. -/
def closed (bytes : List UInt8) : List UInt8 :=
  if bytes.isEmpty ∨ bytes.getLast? = some 10 then bytes else bytes ++ [10]

/-- What is given in base64 or in a file, if that can be read. -/
def load? (files : Files) (m : Material) : Option (List UInt8) :=
  match m.data, m.file with
  | some data, _ => (Text.Base64.decode data).toOption.map closed
  | none, some file => (files file).toOption.map fun text => closed (Text.utf8 text.toList)
  | none, none => none

end Material

/-! ## Merging -/

/-- Whether two settings say different things. -/
def differ (a b : Option String) : Bool :=
  match a, b with
  | some a, some b => a ≠ b
  | _, _ => false

/-- Adds the entries that have new names. -/
def addNew {α : Type} (base new : List (String × α)) : List (String × α) :=
  base ++ new.filter fun e => !base.any fun b => b.1 = e.1

/-- Merges a later kubeconfig into an earlier one; both are of one kind and version. -/
def merge (a b : Kubeconfig) : Except Fault Kubeconfig :=
  if differ a.kind b.kind then .error .kinds
  else if differ a.apiVersion b.apiVersion then .error .apiVersions
  else .ok {
    kind := a.kind.or b.kind
    apiVersion := a.apiVersion.or b.apiVersion
    current := a.current.or b.current
    contexts := addNew a.contexts b.contexts
    clusters := addNew a.clusters b.clusters
    users := addNew a.users b.users }

/-! ## Files -/

/-- A kubeconfig whose files are named from the directory of its own. -/
def within (directory : String) (k : Kubeconfig) : Kubeconfig :=
  let path (file : Option String) : Option String := file.map (Files.relativeTo directory)
  let moved (m : Material) : Material := { m with file := path m.file }
  { k with
    clusters := k.clusters.map fun (name, c) =>
      (name, c.map fun c => { c with authority := moved c.authority })
    users := k.users.map fun (name, u) =>
      (name, u.map fun u => { u with
        tokenFile := path u.tokenFile, certificate := moved u.certificate, key := moved u.key }) }

def paths (k : Kubeconfig) : List String :=
  (k.clusters.flatMap fun (_, c) => (c.bind (·.authority.file)).toList) ++
    k.users.flatMap fun (_, u) =>
      (u.toList.flatMap fun u => [u.tokenFile, u.certificate.file, u.key.file].filterMap id)

/-! ## Use -/

/-- The namespace of a context that names none. -/
def defaultNs : String := "default"

/-- The first entry of a name, unless it is left out. -/
def entry {α : Type} (name : String) (entries : List (String × Option α)) : Option α :=
  (entries.lookup name).bind id

/-- The bytes of the certificates a cluster is trusted by, if there are any. -/
def Cluster.authority? (c : Cluster) (files : Files) : Except Fault (Option (List UInt8)) :=
  if !c.authority.isGiven then .ok none
  else
    match c.authority.load? files with
    | some bytes => .ok (some bytes)
    | none => .error .noAuthority

/-- The server of the context to use. A user of whom nothing is said is allowed. A program for
credentials that needs to know about the cluster needs its certificates before all else. -/
def endpoint (files : Files) (k : Kubeconfig) : Except Fault Endpoint := do
  let some name := k.current | throw .noCurrent
  let some context := entry name k.contexts | throw (.noContext name)
  let some cluster := entry context.cluster k.clusters | throw (.noCluster context.cluster)
  let user := (context.user.bind fun user => entry user k.users).getD .unknown
  if (user.plugin.map (·.needsCluster)).getD false then
    let _ ← cluster.authority? files
  let some server := cluster.server | throw .noServer
  let address ← (Api.Address.parse server).mapError .badServer
  let certificates ← (← cluster.authority? files).mapM fun bytes =>
    (Pem.certificates bytes).mapError .badAuthority
  let proxy ← (cluster.proxy.filter (· ≠ "")).mapM fun proxy =>
    (Api.Address.parse proxy).mapError .badProxy
  return ⟨address, context.ns.getD defaultNs, certificates, proxy, cluster.serverName, user⟩

end Kubeconfig

end InitLock
