import InitLock.Api.Link
import InitLock.Api.ServerName
import InitLock.Credential
import InitLock.Identity

/-!
# Clients

A client makes requests to an endpoint. Before it can, the credentials of its
user are there, the certificates it trusts and the identity it shows can be
read, and the texts it puts into every request may stand there. Proxies are not
supported.
-/

namespace InitLock

/-- A client: the address it makes requests to, its default namespace and its credential. -/
structure Client where
  address : Api.Address
  ns : String
  credential : Credential
  deriving DecidableEq, Repr

namespace Client

inductive Fault where
  | proxy (address : Api.Address)
  | credential (fault : Credential.Fault)
  | certificate (flaw : Certificate.Flaw)
  | identity (flaw : Identity.Flaw)
  | serverName
  | header
  deriving DecidableEq, Repr

def badHeader : String := "failed to parse header value"

namespace Fault

/-- What is wrong with a proxy: a feature is left out, or there is none for it. -/
def proxyMessage (address : Api.Address) : String :=
  let without (feature : String) : String :=
    " requires the disabled feature " ++ Text.quoted feature
  "configured proxy " ++ address.render ++
    (if address.scheme = some "http" then without "kube/http-proxy"
    else if address.scheme = some "socks5" then without "kube/socks5"
    else " uses an unsupported protocol")

def message : Fault → String
  | proxy address => proxyMessage address
  | credential fault => "auth error: " ++ fault.message
  | certificate flaw =>
    "rustls tls error: failed to add a root certificate: invalid peer certificate: " ++
      flaw.message
  | identity flaw => "rustls tls error: " ++ flaw.message
  | serverName => "rustls tls error: invalid server name: invalid dns name"
  | header => "HttpError: " ++ badHeader

end Fault

/-- Whether a text may stand in the head of a request. -/
def isHeaderText (s : String) : Bool :=
  s.toList.all fun c => c = '\t' || (decide (' ' ≤ c) && c ≠ '\x7f')

/-- Accepts what a client shows to servers. It shows nothing unless key and certificates can both be
read. -/
def checkIdentity (files : Files) (u : Kubeconfig.User) : Except Fault Unit :=
  match u.key.load? files, u.certificate.load? files with
  | some key, some certificates =>
    ((Identity.parse (key ++ certificates)).bind Identity.check).mapError .identity
  | _, _ => .ok ()

/-- The client for an endpoint; `now` counts as a timestamp's seconds do. -/
def ofEndpoint (files : Files) (now : Int) (e : Endpoint) : Except Fault Client := do
  if let some proxy := e.proxy then throw (.proxy proxy)
  let credential ← (Credential.ofUser files now e.user).mapError .credential
  (e.certificates.getD []).forM fun c => (Certificate.check c).mapError .certificate
  checkIdentity files e.user
  if let some name := e.serverName then
    if !Api.ServerName.isValid name then throw .serverName
  if (e.user.impersonated.toList ++ e.user.groups).any fun s => !isHeaderText s then
    throw .header
  return ⟨e.address, e.ns, credential⟩

end Client

/-! ## No server

Where nothing listens, every request fails to connect, unless it fails before:
for a token that may not stand in a request, or an address without a scheme.
-/

namespace Api

/-- Why no request of a client reaches a server. -/
def whyUnreachable (c : Client) : String :=
  match c.credential with
  | .changing token =>
    if Client.isHeaderText token then connecting else "invalid bearer token: " ++ Client.badHeader
  | _ => connecting
where
  /-- Why a request cannot be sent. -/
  connecting : String :=
    if c.address.isAbsolute then "client error (Connect)"
    else "client error (UserAbsoluteUriRequired)"

/-- What answers a client whose address nothing listens at. -/
def unreachable (c : Client) : Server Unit := fun _ s => (.broken (whyUnreachable c), s)

end Api

end InitLock
