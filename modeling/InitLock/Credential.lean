import InitLock.Kubeconfig
import InitLock.Text.Timestamp

/-!
# Credentials

What requests carry to say who makes them. A user's kubeconfig may name a
service that gives out credentials, a name and a password, a token, a file that
holds a token and a program that prints one; the first of these that is there
counts. There are no programs here, so what needs one fails.
-/

namespace InitLock

open Kubeconfig

/-- What requests carry. A token that may change is looked at whenever a request is made. -/
inductive Credential where
  | anonymous
  | basic (name password : String)
  | bearer (token : String)
  | changing (token : String)
  deriving DecidableEq, Repr

namespace Credential

inductive Fault where
  | azure
  | noIdToken
  | noAccount
  | unknownProvider (name : String)
  | badExpiry (message : String)
  | notExecuted (program : String) (why : FileFault)
  | unreadable (path : String) (why : FileFault)
  | noProgram
  | notRun (why : FileFault)
  deriving DecidableEq, Repr

/-- What is said of text with a NUL where none may be. -/
def nulFound : String := "nul byte found in provided data"

namespace Fault

def message : Fault → String
  | azure =>
    "failed exec auth: The azure auth plugin is not supported; " ++
      "use https://github.com/Azure/kubelogin instead"
  | noIdToken => "failed exec auth: No id-token for oidc Authentication provider"
  | noAccount =>
    "failed exec auth: Enable oauth feature to use " ++
      "Google Application Credentials-based token source"
  | unknownProvider name =>
    "failed exec auth: Authentication with provider " ++ name ++ " not supported"
  | badExpiry message => "malformed token expiration date: " ++ message
  | notExecuted program why =>
    "failed exec auth: Executing " ++ program ++ " failed: " ++
      match why.system? with
      | some (n, name, text) =>
        "Os \x7b code: " ++ toString n ++ ", kind: " ++ name ++ ", message: " ++
          Text.quoted text ++ " \x7d"
      | none =>
        "Error \x7b kind: InvalidInput, message: " ++ Text.quoted nulFound ++ " \x7d"
  | unreadable path why =>
    "failed to read token file '" ++ Text.quoted path ++ "': " ++ why.message
  | noProgram => "command must be specified to use exec authentication plugin"
  | notRun why =>
    "unable to run auth exec: " ++ (if why = .nul then nulFound else why.message)

end Fault

/-- Why a program is not run with words that come to it. -/
def whyNotRun (files : Files) (program : String) (words : List String) : FileFault :=
  if words.any fun w => w.toList.contains '\x00' then .nul else files.whyNotRun program

/-! ## Services -/

/-- How long a token must be valid still, in seconds. -/
def margin : Int := 60

/-- A token that has been kept and is valid still; `now` counts as a timestamp's seconds do. -/
def kept? (now : Int) (p : Provider) : Except Fault (Option Credential) :=
  match p.setting? "access-token", p.setting? "expiry" with
  | some token, some expiry => do
    let t ← (Text.Timestamp.parse expiry).mapError .badExpiry
    return if now + margin < t.seconds then some (.changing token) else none
  | _, _ => return none

def ofCloud (files : Files) (now : Int) (p : Provider) : Except Fault Credential := do
  if let some token := p.setting? "id-token" then return .bearer token
  if let some kept ← kept? now p then return kept
  match p.setting? "cmd-path" with
  | some program =>
    let words := (p.setting? "cmd-args").toList
    throw (.notExecuted program (whyNotRun files program words))
  | none => throw .noAccount

def ofProvider (files : Files) (now : Int) (p : Provider) : Except Fault Credential :=
  if p.name = "oidc" then
    match p.setting? "id-token" with
    | some token => .ok (.bearer token)
    | none => .error .noIdToken
  else if p.name = "gcp" then ofCloud files now p
  else if p.name = "azure" then .error .azure
  else .error (.unknownProvider p.name)

/-! ## Users -/

/-- The credential that a program prints. -/
def ofPlugin (files : Files) (p : Plugin) : Except Fault Credential :=
  match p.program with
  | none => .error .noProgram
  | some program =>
    let words := p.arguments ++ p.environment.flatMap fun (name, value) => [name, value]
    .error (.notRun (whyNotRun files program words))

def ofUser (files : Files) (now : Int) (u : User) : Except Fault Credential :=
  match u.provider, u.name, u.password, u.token, u.tokenFile, u.plugin with
  | some provider, _, _, _, _, _ => ofProvider files now provider
  | none, some name, some password, _, _, _ => .ok (.basic name password)
  | none, _, _, some token, _, _ => .ok (.bearer token)
  | none, _, _, none, some path, _ =>
    match files path with
    | .ok token => .ok (.changing token)
    | .error why => .error (.unreadable path why)
  | none, _, _, none, none, some plugin => ofPlugin files plugin
  | none, _, _, none, none, none => .ok .anonymous

end Credential

end InitLock
