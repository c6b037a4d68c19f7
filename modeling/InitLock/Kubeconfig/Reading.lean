import InitLock.Kubeconfig
import InitLock.Yaml.Document
import InitLock.Yaml.Shape

/-!
# Reading kubeconfigs

A file holds any number of documents, merged in order; one that is empty says
nothing. The files to read are those a list of paths names, else the one in the
home directory.
-/

namespace InitLock.Kubeconfig

open Yaml

/-! ## Shapes -/

/-- A field of text that may be left out. -/
def optionalText (name : String) : String × Need × Shape := (name, .optional, .text)

def extensions : String × Need × Shape :=
  ("extensions", .optional, .list (.record "NamedExtension"
    [("name", .required, .text), ("extension", .required, .json)]))

def contextShape : Shape :=
  .record "Context"
    [("cluster", .required, .text), optionalText "user", optionalText "namespace", extensions]

def clusterShape : Shape :=
  .record "Cluster"
    [optionalText "server", ("insecure-skip-tls-verify", .optional, .bool),
      optionalText "certificate-authority", optionalText "certificate-authority-data",
      optionalText "proxy-url", ("disable-compression", .optional, .bool),
      optionalText "tls-server-name", extensions]

def providerShape : Shape :=
  .record "AuthProviderConfig" [("name", .required, .text), ("config", .defaulted, .dict .text)]

def pluginShape : Shape :=
  .record "ExecConfig"
    [optionalText "apiVersion", optionalText "command", ("args", .optional, .list .text),
      ("env", .optional, .list (.dict .text)),
      ("interactiveMode", .optional, .choice ["Never", "IfAvailable", "Always"]),
      ("provideClusterInfo", .defaulted, .bool)]

def userShape : Shape :=
  .record "AuthInfo"
    [optionalText "username", optionalText "password", optionalText "token",
      optionalText "tokenFile", optionalText "client-certificate",
      optionalText "client-certificate-data", optionalText "client-key",
      optionalText "client-key-data", optionalText "as", ("as-groups", .optional, .list .text),
      ("auth-provider", .optional, providerShape), ("exec", .optional, pluginShape)]

/-- A list of named entries; an entry may be left out. -/
def namedShape (record field : String) (s : Shape) : Shape :=
  .list (.record record [("name", .required, .text), (field, .optional, s)])

def shape : Shape :=
  .record "Kubeconfig"
    [("preferences", .optional, .record "Preferences" [("colors", .optional, .bool), extensions]),
      ("clusters", .defaulted, namedShape "NamedCluster" "cluster" clusterShape),
      ("users", .defaulted, namedShape "NamedAuthInfo" "user" userShape),
      ("contexts", .defaulted, namedShape "NamedContext" "context" contextShape),
      optionalText "current-context", extensions, optionalText "kind", optionalText "apiVersion"]

/-! ## Documents -/

/-- The text under a key, if it is not null. -/
def textIn? (v : Value) (key : String) : Option String := (v.present? key).bind Value.text?

/-- The text under a key that is there. -/
def textIn (v : Value) (key : String) : String := (textIn? v key).getD ""

def itemsIn (v : Value) (key : String) : List Value := ((v.present? key).map Value.items).getD []

def textsOf (v : Value) : List (String × String) :=
  v.members.map fun m => ((m.1.text?).getD "", (m.2.text?).getD "")

def lastOf? (texts : List (String × String)) (key : String) : Option String :=
  texts.reverse.lookup key

/-- A certificate or a key, in base64 or in a file. -/
def materialIn (v : Value) (key : String) : Material :=
  ⟨textIn? v (key ++ "-data"), textIn? v key⟩

def entriesIn {α : Type} (v : Value) (key field : String) (f : Value → α) :
    List (String × Option α) :=
  (itemsIn v key).map fun e => (textIn e "name", (e.present? field).map f)

def contextOf (v : Value) : Context :=
  ⟨textIn v "cluster", textIn? v "user", textIn? v "namespace"⟩

def clusterOf (v : Value) : Cluster :=
  ⟨textIn? v "server", materialIn v "certificate-authority", textIn? v "proxy-url",
    textIn? v "tls-server-name"⟩

/-- The service for credentials of a value that has its shape. -/
def providerOf (v : Value) : Provider :=
  ⟨textIn v "name", ((v.get? "config").map textsOf).getD []⟩

/-- The program for credentials of a value that has its shape. A variable of its environment has a
name and a value. -/
def pluginOf (v : Value) : Plugin where
  program := textIn? v "command"
  arguments := (itemsIn v "args").map fun a => (a.text?).getD ""
  environment := (itemsIn v "env").filterMap fun e => do
    let texts := textsOf e
    return (← lastOf? texts "name", ← lastOf? texts "value")
  needsCluster := ((v.get? "provideClusterInfo").bind Value.bool?).getD false

def userOf (v : Value) : User where
  name := textIn? v "username"
  password := textIn? v "password"
  token := textIn? v "token"
  tokenFile := textIn? v "tokenFile"
  certificate := materialIn v "client-certificate"
  key := materialIn v "client-key"
  impersonated := textIn? v "as"
  groups := (itemsIn v "as-groups").map fun g => (g.text?).getD ""
  provider := (v.present? "auth-provider").map providerOf
  plugin := (v.present? "exec").map pluginOf

def ofValue (v : Value) : Kubeconfig where
  kind := textIn? v "kind"
  apiVersion := textIn? v "apiVersion"
  current := textIn? v "current-context"
  contexts := entriesIn v "contexts" "context" contextOf
  clusters := entriesIn v "clusters" "cluster" clusterOf
  users := entriesIn v "users" "user" userOf

def ofDocument (d : Document) : Except Fault Kubeconfig := do
  let v ← d.value.mapError .malformed
  (shape.check v).mapError fun m => .misfit m.message
  return ofValue v

/-- The kubeconfig of a text; all its documents are read before any two are merged. -/
def parse (text : String) : Except Fault Kubeconfig := do
  match ← (documents text).mapM ofDocument with
  | [] => return empty
  | k :: ks => ks.foldlM merge k

/-! ## Files -/

/-- A text without the mark of its byte order. -/
def withoutMark (text : String) : String :=
  match text.toList with
  | '\ufeff' :: cs => String.ofList cs
  | _ => text

def read (files : Files) (path : String) : Except Fault Kubeconfig := do
  let text ← (files path).mapError (.unreadable path)
  return (← parse (withoutMark text)).within (Files.parent path)

/-- Where kubeconfigs are looked for: a list of paths, and the home directory. -/
structure Sources where
  list : Option String
  home : Option String
  deriving DecidableEq, Repr

namespace Sources

/-- The paths in a list, between colons. -/
def listed (s : Sources) : List String :=
  match s.list with
  | none => []
  | some list => (list.splitOn ":").filter (· ≠ "")

/-- The path in a home directory. -/
def inHome (home : String) : String :=
  (if home = "" ∨ home.endsWith "/" then home else home ++ "/") ++ ".kube/config"

/-- The paths of the files to read, none if there is no place to look. -/
def paths (s : Sources) : Option (List String) :=
  match s.listed with
  | [] => s.home.map fun home => [inHome home]
  | paths => some paths

end Sources

def find (files : Files) (s : Sources) : Except Fault Kubeconfig :=
  match s.paths with
  | none => .error .noHome
  | some paths => paths.foldlM (fun k path => do merge k (← read files path)) empty

end InitLock.Kubeconfig
