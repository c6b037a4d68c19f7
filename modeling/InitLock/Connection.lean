import InitLock.Client
import InitLock.Error
import InitLock.Kubeconfig.Reading
import InitLock.Log

/-!
# Connections

A connection is set up from the kubeconfig at a given path, or from those that
are found. Programs inside a cluster would be told where the server is by their
environment; where no kubeconfig can be used, the error says that they are not.
-/

namespace InitLock

/-- What is reported when a connection is set up. -/
inductive Connection.Event where
  | creating (address : Api.Address)
  deriving DecidableEq, Repr

def Connection.Event.line : Connection.Event → Log.Line
  | creating address => ⟨.debug, "Creating kube client", [("cluster_url", address.render)]⟩

/-- What setting up a connection comes to: what is reported, and the client or an error. -/
structure Connection where
  events : List Connection.Event
  client : Except Error Client

namespace Connection

def failed (message : String) : Error := .internal message "create_client"

def fromPath (files : Files) (path : String) : Except Error Endpoint := do
  let k ← (Kubeconfig.read files path).mapError fun f =>
    failed ("failed to read kubeconfig " ++ path ++ ": " ++ f.message)
  (k.endpoint files).mapError fun f => failed ("failed to load kubeconfig: " ++ f.message)

/-- Why the environment does not say where the server is. -/
def notInCluster : String :=
  "failed to read an incluster environment variable: environment variable not found"

/-- The endpoint of the kubeconfigs that are found. -/
def inferred (files : Files) (s : Kubeconfig.Sources) : Except Error Endpoint :=
  ((Kubeconfig.find files s).bind fun k => k.endpoint files).mapError fun f =>
    failed ("failed to infer config: failed to infer config: in-cluster: (" ++ notInCluster ++
      "), kubeconfig: (" ++ f.message ++ ")")

def endpoint (files : Files) (s : Kubeconfig.Sources) (path : Option String) :
    Except Error Endpoint :=
  match path with
  | some path => fromPath files path
  | none => inferred files s

/-- Sets up a connection at a time that counts as a timestamp's seconds do. -/
def setUp (files : Files) (now : Int) (s : Kubeconfig.Sources) (path : Option String) :
    Connection :=
  match endpoint files s path with
  | .error e => ⟨[], .error e⟩
  | .ok e =>
    ⟨[.creating e.address], (Client.ofEndpoint files now e).mapError fun f =>
      failed ("failed to create client: " ++ f.message)⟩

def log (c : Connection) : List Log.Line := c.events.map Event.line

/-! ## Files to read -/

def paths (s : Kubeconfig.Sources) : Option String → List String
  | some path => [path]
  | none => s.paths.getD []

/-- The paths of the files that the kubeconfigs of a connection name. -/
def namedPaths (files : Files) (s : Kubeconfig.Sources) (path : Option String) : List String :=
  (paths s path).flatMap fun path =>
    match Kubeconfig.read files path with
    | .ok k => k.paths
    | .error _ => []

end Connection

end InitLock
