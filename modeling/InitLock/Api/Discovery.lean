import InitLock.Api.Link
import InitLock.Api.Metadata
import InitLock.Api.Version
import InitLock.Error

/-!
# Discovery

Which resource serves a kind of a group, at the preferred of all versions that
serve it. The server lists its groups, for each group its versions, and for
each version its resources. The group without a name is listed apart.
-/

namespace InitLock.Api

open Json Json.Reader

/-- A resource: where the objects of a kind are found. -/
structure Resource where
  group : String
  version : String
  apiVersion : String
  kind : String
  plural : String
  deriving DecidableEq, Repr

namespace Discovery

/-! ## Documents -/

structure GroupVersion where
  groupVersion : String
  version : String
  deriving DecidableEq, Repr

structure Group where
  name : String
  versions : List GroupVersion
  deriving DecidableEq, Repr

/-- A resource as it is listed. -/
structure Listed where
  name : String
  group : Option String
  version : Option String
  kind : String
  deriving DecidableEq, Repr

structure Listing where
  groupVersion : String
  resources : List Listed
  deriving DecidableEq, Repr

def groupVersionMember (name : String) (v : GroupVersion) : Member GroupVersion :=
  match name with
  | "groupVersion" => .take ((nullable text).map fun s => { v with groupVersion := s.getD "" })
  | "version" => .take ((nullable text).map fun s => { v with version := s.getD "" })
  | _ => .skip

def groupVersion : Reader GroupVersion :=
  object "GroupVersionForDiscovery" groupVersionMember ⟨"", ""⟩

def addressMember (name : String) (u : Unit) : Member Unit :=
  match name with
  | "clientCIDR" | "serverAddress" => Metadata.ignoring (nullable text) u
  | _ => .skip

def addresses : Reader (Option (List Unit)) :=
  nullable (list (object "ServerAddressByClientCIDR" addressMember ()))

/-- The members that say what kind of document this is, and at what version. -/
def typed {τ : Type} (kind name : String) (t : τ) (others : Member τ) : Member τ :=
  match name with
  | "apiVersion" => Metadata.ignoring (exactly "v1") t
  | "kind" => Metadata.ignoring (exactly kind) t
  | _ => others

def groupMember (name : String) (g : Group) : Member Group :=
  typed "APIGroup" name g <|
    match name with
    | "name" => .take ((nullable text).map fun s => { g with name := s.getD "" })
    | "versions" =>
      .take ((nullable (list groupVersion)).map fun vs => { g with versions := vs.getD [] })
    | "preferredVersion" => Metadata.ignoring (nullable groupVersion) g
    | "serverAddressByClientCIDRs" => Metadata.ignoring addresses g
    | _ => .skip

def group : Reader Group := object "APIGroup" groupMember ⟨"", []⟩

def groups : Reader (List Group) :=
  object "APIGroupList"
    (fun name gs => typed "APIGroupList" name gs <|
      match name with
      | "groups" => .take ((nullable (list group)).map fun gs => gs.getD [])
      | _ => .skip) []

/-- Reads the versions of the group without a name. -/
def coreVersions : Reader (List String) :=
  object "APIVersions"
    (fun name vs => typed "APIVersions" name vs <|
      match name with
      | "versions" => .take ((nullable (list text)).map fun vs => vs.getD [])
      | "serverAddressByClientCIDRs" => Metadata.ignoring addresses vs
      | _ => .skip) []

def listedMember (name : String) (r : Listed) : Member Listed :=
  match name with
  | "name" => .take ((nullable text).map fun s => { r with name := s.getD "" })
  | "group" => .take ((nullable text).map fun s => { r with group := s })
  | "version" => .take ((nullable text).map fun s => { r with version := s })
  | "kind" => .take ((nullable text).map fun s => { r with kind := s.getD "" })
  | "categories" | "shortNames" | "verbs" => Metadata.ignoring (nullable (list text)) r
  | "namespaced" => Metadata.ignoring (nullable boolean) r
  | "singularName" | "storageVersionHash" => Metadata.ignoring (nullable text) r
  | _ => .skip

def listed : Reader Listed := object "APIResource" listedMember ⟨"", none, none, ""⟩

def listing : Reader Listing :=
  object "APIResourceList"
    (fun name l => typed "APIResourceList" name l <|
      match name with
      | "groupVersion" => .take ((nullable text).map fun s => { l with groupVersion := s.getD "" })
      | "resources" =>
        .take ((nullable (list listed)).map fun rs => { l with resources := rs.getD [] })
      | _ => .skip) ⟨"", []⟩

/-! ## Resources -/

/-- A group and a version from the text of both; without a slash there is no group. -/
def splitGroupVersion (s : String) : String × String :=
  match s.toList.dropWhile (· ≠ '/') with
  | [] => ("", s)
  | _ :: version => (String.ofList (s.toList.takeWhile (· ≠ '/')), String.ofList version)

def joinGroupVersion (group version : String) : String :=
  if group = "" then version else group ++ "/" ++ version

/-- A resource of a listing. What it does not say of itself the listing says. -/
def resourceOf (l : Listing) (r : Listed) : Resource :=
  let (group, version) := splitGroupVersion l.groupVersion
  { group := r.group.getD group
    version := r.version.getD version
    apiVersion := joinGroupVersion group version
    kind := r.kind
    plural := r.name }

/-- The resources of a listing but for those that are parts of others. -/
def resourcesOf (l : Listing) : List Resource :=
  (l.resources.filter fun r => !r.name.toList.contains '/').map (resourceOf l)

/-- The resource that serves a kind, of those at all versions of a group. -/
def choose (kind : String) (versions : List (String × List Resource)) : Option Resource :=
  let served := (Version.sortBy (·.1) versions).flatMap (·.2)
  (Version.sortBy (·.version) (served.filter fun r => r.kind = kind)).head?

/-! ## Queries -/

variable {σ : Type}

def listVersions (server : Server σ) (root : String) :
    List GroupVersion → Query σ (List (String × List Resource))
  | [] => return []
  | v :: vs => do
    let l ← Link.document server listing (root ++ v.groupVersion)
    return (v.version, resourcesOf l) :: (← listVersions server root vs)

/-- The resources of a group, which must have a version. -/
def listGroup (server : Server σ) (root name : String) (vs : List GroupVersion) :
    Query σ (List (String × List Resource)) :=
  if vs.isEmpty then throw (.emptyGroup name) else listVersions server root vs

/-- The resources of the last of the groups of a name. -/
def listGroups (server : Server σ) (name : String)
    (found : Option (List (String × List Resource))) :
    List Group → Query σ (Option (List (String × List Resource)))
  | [] => return found
  | g :: gs =>
    if g.name = name then do
      let versions ← listGroup server "/apis/" g.name g.versions
      listGroups server name (some versions) gs
    else listGroups server name found gs

/-- The resources of a group, at each of its versions; none if there is no such group. -/
def resources (server : Server σ) (name : String) : Query σ (List (String × List Resource)) := do
  let gs ← Link.document server groups "/apis"
  let found ← listGroups server name none gs
  if name = "" then
    let vs ← Link.document server coreVersions "/api"
    listGroup server "/api/" name (vs.map fun v => ⟨v, v⟩)
  else return found.getD []

def context : String := "build_api_resource_with_discovery"

/-- Finds the resource that serves a kind. That there is none is an error, and not the same as an
object that does not exist. -/
def find (server : Server σ) (group kind : String) : Action σ (Except Error Resource) := do
  match ← (resources server group).run with
  | .error f => return .error (.internal ("API discovery failed: " ++ f.message) context)
  | .ok versions =>
    match choose kind versions with
    | some r =>
      Link.report (.discovered group kind r.apiVersion)
      return .ok r
    | none =>
      Link.report (.notServed group kind)
      return .error
        (.internal ("resource " ++ group ++ "/" ++ kind ++ " is not served by the API server")
          context)

end Discovery

end InitLock.Api
