import InitLock.Certificate
import InitLock.Pem
import InitLock.Text.Character

/-!
# Identities

What a client shows to a server: certificates and the private key of the first
of them. Both come from one PEM text, in which each line ends at a line feed or
a carriage return, and only whole lines begin and end a section. Sections that
are not known are passed over; known ones that are neither certificate nor key
are refused.
-/

namespace InitLock

inductive PrivateKey.Kind where
  | pkcs8
  | pkcs1
  | sec1
  deriving DecidableEq, Repr

structure PrivateKey where
  kind : PrivateKey.Kind
  bytes : List UInt8
  deriving DecidableEq, Repr

/-- A client's certificates and its key. -/
structure Identity where
  certificates : List (List UInt8)
  key : PrivateKey
  deriving DecidableEq, Repr

namespace Identity

/-- Why a text holds no identity. -/
inductive Flaw where
  | beginning (line : List UInt8)
  | noEnd (line : List UInt8)
  | symbol (byte : UInt8)
  | earlyPadding
  | padding
  | unknownKey
  | noKey
  | noCertificate
  | badKey
  | certificate (flaw : Certificate.Flaw)
  deriving DecidableEq, Repr

namespace Flaw

/-- A line of a text in words. -/
def quotedLine (line : List UInt8) : String :=
  match Text.decodeUtf8 line with
  | .ok cs => Text.quoted (String.ofList cs)
  | .error _ => Text.quoted "\ufffd"

def message : Flaw → String
  | beginning line => "identity PEM is invalid: illegal section start: " ++ quotedLine line
  | noEnd line => "identity PEM is invalid: section end " ++ quotedLine line ++ " missing"
  | symbol byte => "identity PEM is invalid: InvalidCharacter(" ++ toString byte.toNat ++ ")"
  | earlyPadding => "identity PEM is invalid: PrematurePadding"
  | padding => "identity PEM is invalid: InvalidTrailingPadding"
  | unknownKey => "unknown private key format"
  | noKey => "identity PEM is missing a private key: the key must be PKCS8 or RSA/PKCS1"
  | noCertificate => "identity PEM is missing certificate"
  | badKey =>
    "invalid private key: unexpected error: failed to parse private key as RSA, ECDSA, or EdDSA"
  | certificate flaw => "invalid private key: invalid peer certificate: " ++ flaw.message

end Flaw

/-! ## Lines -/

def lines : List UInt8 → List (List UInt8)
  | [] => []
  | b :: bytes =>
    if b = 10 ∨ b = 13 then [b] :: lines bytes
    else
      match lines bytes with
      | [] => [[b]]
      | line :: rest => (b :: line) :: rest

def opening : List UInt8 := Pem.ascii "-----BEGIN "

/-- The name of the section that a line begins. Five dashes follow it, among which blanks and the
end of the line do not count. -/
def sectionName (line : List UInt8) : Except Flaw (List UInt8) :=
  let tail := line.reverse.takeWhile fun b => b = 45 || b = 32 || b = 10 || b = 13
  let dashes := tail.reverse.dropWhile (· ≠ 45)
  if tail.count 45 ≠ 5 then .error (.beginning line)
  else .ok ((line.take (line.length - dashes.length)).drop opening.length)

def closing (name : List UInt8) : List UInt8 := Pem.ascii "-----END " ++ name ++ Pem.ascii "-----"

/-! ## The bytes of a section -/

/-- White space in base64. -/
def isBlank (b : UInt8) : Bool := b = 32 || (9 ≤ b && b ≤ 13)

/-- The bytes of base64 with white space in it. Padding ends the last group, of which the bits
beyond the last byte do not count. -/
def decode (bytes : List UInt8) : Except Flaw (List UInt8) :=
  let symbols := bytes.filter fun b => !isBlank b
  match symbols.find? fun b => b ≠ Text.Base64.filler ∧ (Text.base64Digit? b).isNone with
  | some b => .error (.symbol b)
  | none =>
    let body := symbols.takeWhile (· ≠ Text.Base64.filler)
    let rest := symbols.dropWhile (· ≠ Text.Base64.filler)
    if rest.any (· ≠ Text.Base64.filler) then .error .earlyPadding
    else if 2 < rest.length ∨ symbols.length % 4 ≠ 0 then .error .padding
    else
      let digits := body.filterMap Text.base64Digit?
      .ok (groups digits.length digits)
where
  /-- The bytes of at most `fuel` groups of digits. -/
  groups : Nat → List Nat → List UInt8
    | 0, _ => []
    | fuel + 1, ds =>
      if ds.isEmpty then [] else Text.Base64.bytes (ds.take 4) ++ groups fuel (ds.drop 4)

/-! ## Sections -/

/-- What a section of a known name is. -/
inductive Item where
  | certificate (bytes : List UInt8)
  | key (key : PrivateKey)
  | other
  deriving DecidableEq, Repr

def Item.ofName? (name : List UInt8) (bytes : List UInt8) : Option Item :=
  if name = Pem.ascii "CERTIFICATE" then some (.certificate bytes)
  else if name = Pem.ascii "PRIVATE KEY" then some (.key ⟨.pkcs8, bytes⟩)
  else if name = Pem.ascii "RSA PRIVATE KEY" then some (.key ⟨.pkcs1, bytes⟩)
  else if name = Pem.ascii "EC PRIVATE KEY" then some (.key ⟨.sec1, bytes⟩)
  else if name ∈ ["PUBLIC KEY", "X509 CRL", "CERTIFICATE REQUEST"].map Pem.ascii then some .other
  else none

/-- What has been read: the name of the section, if one is open, and its base64. -/
structure Seen where
  name : Option (List UInt8)
  data : List UInt8
  items : List Item

def Seen.line (s : Seen) (line : List UInt8) : Except Flaw Seen := do
  if opening.isPrefixOf line then
    return { s with name := some (← sectionName line) }
  match s.name with
  | none => return s
  | some name =>
    if (closing name).isPrefixOf line then
      if (Item.ofName? name []).isNone then return ⟨none, [], s.items⟩
      let bytes ← decode s.data
      let item := (Item.ofName? name bytes).toList
      if item = [.other] then throw .unknownKey
      return ⟨none, [], s.items ++ item⟩
    else return { s with data := s.data ++ line }

def items (bytes : List UInt8) : Except Flaw (List Item) := do
  let s ← (lines bytes).foldlM Seen.line ⟨none, [], []⟩
  match s.name with
  | some name => throw (.noEnd (closing name))
  | none => return s.items

/-- The last key of a kind. -/
def keyOf? (kind : PrivateKey.Kind) (items : List Item) : Option PrivateKey :=
  items.reverse.findSome? fun
    | .key k => if k.kind = kind then some k else none
    | _ => none

/-- The identity in a text. Of keys of several kinds one has to be taken. -/
def parse (bytes : List UInt8) : Except Flaw Identity := do
  let items ← items bytes
  let key := ((keyOf? .pkcs8 items).or (keyOf? .pkcs1 items)).or (keyOf? .sec1 items)
  let some key := key | throw .noKey
  let certificates := items.filterMap fun
    | .certificate bytes => some bytes
    | _ => none
  if certificates.isEmpty then throw .noCertificate
  return ⟨certificates, key⟩

end Identity

/-! ## Keys -/

namespace PrivateKey

open Der

/-- Reads the nine numbers of an RSA key, after the number of its form. -/
def rsa : Reading Unit := inside sequence do
  let form ← tagged integer
  if form ≠ [0] then failure
  for _ in List.range 8 do
    let _ ← tagged integer

/-- How long the secrets of the two curves are. -/
def curveLengths : List Nat := [32, 48]

def curve : Reading Unit := inside sequence do
  let form ← tagged integer
  let secret ← tagged octetString
  if form ≠ [1] ∨ secret.length ∉ curveLengths then failure
  let _ ← many value maxLength

/-- The names of the algorithms: RSA, the curves in general, and Ed25519. -/
def rsaName : List UInt8 := [0x2a, 0x86, 0x48, 0x86, 0xf7, 0x0d, 0x01, 0x01, 0x01]
def curveName : List UInt8 := [0x2a, 0x86, 0x48, 0xce, 0x3d, 0x02, 0x01]
def edwardsName : List UInt8 := [0x2b, 0x65, 0x70]

def named : Reading Unit := inside sequence do
  let form ← tagged integer
  if form ≠ [0] ∧ form ≠ [1] then failure
  let algorithm ← inside sequence do
    let name ← tagged objectIdentifier
    let _ ← many value maxLength
    return name
  let content ← tagged octetString
  let _ ← many value maxLength
  let inner : Option Unit :=
    if algorithm = rsaName then all? rsa content
    else if algorithm = curveName then all? curve content
    else if algorithm = edwardsName then
      (all? (tagged octetString) content).filter (·.length = 32) |>.map fun _ => ()
    else none
  (inner : Option Unit)

/-- Whether a key has the form of its kind. -/
def isWellFormed (k : PrivateKey) : Bool :=
  match k.kind with
  | .pkcs8 => (all? named k.bytes).isSome
  | .pkcs1 => (all? rsa k.bytes).isSome
  | .sec1 => (all? curve k.bytes).isSome

end PrivateKey

def Identity.check (i : Identity) : Except Identity.Flaw Unit :=
  if !i.key.isWellFormed then .error .badKey
  else
    match (i.certificates.head?).map fun c => Der.all? Certificate.frame c with
    | some (some f) => f.check.mapError .certificate
    | _ => .error (.certificate .encoding)

end InitLock
