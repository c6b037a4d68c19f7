import InitLock.Der

/-!
# Certificates

The frame of an X.509 certificate: that its parts are there in their order, and
that no extension is critical but those that are understood. Neither its names
nor its signature are looked at. A certificate of the first version has no
extensions.
-/

namespace InitLock.Certificate

open Der

/-- Why a certificate is not accepted. -/
inductive Flaw where
  | encoding
  | algorithms
  | critical
  | extension
  deriving DecidableEq, Repr

namespace Flaw

def message : Flaw → String
  | encoding => "BadEncoding"
  | algorithms => "Other(OtherError(SignatureAlgorithmMismatch))"
  | critical => "Other(OtherError(UnsupportedCriticalExtension))"
  | extension => "Other(OtherError(ExtensionValueInvalid))"

end Flaw

structure Extension where
  name : List UInt8
  critical : Bool
  value : List UInt8
  deriving DecidableEq, Repr

namespace Extension

/-- Reads whether an extension is critical; it is not unless it says so. -/
def readCritical : Reading Bool := do
  if (← nextTag?) ≠ some boolean then return false
  match ← tagged boolean with
  | [0xff] => return true
  | [0x00] => return false
  | _ => failure

def read : Reading Extension := inside sequence do
  let name ← tagged objectIdentifier
  let critical ← readCritical
  let value ← tagged octetString
  return ⟨name, critical, value⟩

/-- The number of a standard extension: the last part of its name. -/
def number? (e : Extension) : Option UInt8 :=
  match e.name with
  | [0x55, 0x1d, n] => some n
  | _ => none

/-- The extension about the use of the key, which need not be looked at. -/
def keyUsage : UInt8 := 15

/-- The extensions that are understood; each is there once, and its value is a sequence. -/
def understood : List UInt8 := [17, 19, 30, 31, 37]

/-- Looks at an extension after those before it. -/
def check (earlier : List Extension) (e : Extension) : Except Flaw Unit :=
  match e.number? with
  | some n =>
    if n = keyUsage then .ok ()
    else if n ∈ understood then
      if earlier.any fun o => o.number? = some n then .error .extension
      else if (all? (tagged sequence) e.value).isNone then .error .encoding
      else .ok ()
    else if e.critical then .error .critical
    else .ok ()
  | none => if e.critical then .error .critical else .ok ()

end Extension

/-- The parts of a certificate that are looked at. -/
structure Frame where
  signedWith : List UInt8
  named : List UInt8
  extensions : List Extension

/-- Reads the algorithm of the signature, and the signature, which has whole bytes. -/
def signature : Reading (List UInt8) := do
  let algorithm ← tagged sequence
  match ← tagged bitString with
  | 0 :: _ => return algorithm
  | _ => failure

def extensions : Reading (List Extension) := do
  if (← get).isEmpty then return []
  inside (member 3) do
    inside sequence do
      many Extension.read maxLength

/-- Reads what is signed: version, serial number, algorithm, issuer, validity, subject and key. -/
def body : Reading (List UInt8 × List Extension) := do
  let version ← inside (member 0) (tagged integer)
  if version ≠ [2] then failure
  let _ ← tagged integer
  let algorithm ← tagged sequence
  for _ in List.range 4 do
    let _ ← tagged sequence
  return (algorithm, ← extensions)

def frame : Reading Frame := inside sequence do
  let (named, extensions) ← inside sequence body
  return ⟨← signature, named, extensions⟩

def firstVersion : Reading Unit := inside sequence do
  inside sequence do
    let _ ← tagged integer
    for _ in List.range 5 do
      let _ ← tagged sequence
  let _ ← tagged sequence
  let _ ← tagged bitString

def checkExtensions (es : List Extension) : Except Flaw Unit :=
  es.zipIdx.forM fun (e, i) => e.check (es.take i)

/-- Accepts a certificate of the third version, or says what is wrong. -/
def Frame.check (f : Frame) : Except Flaw Unit :=
  if f.signedWith ≠ f.named then .error .algorithms else checkExtensions f.extensions

/-- Accepts a certificate to trust in, or says what is wrong. -/
def check (bytes : List UInt8) : Except Flaw Unit :=
  match all? frame bytes with
  | some f => f.check
  | none => if (all? firstVersion bytes).isSome then .ok () else .error .encoding

end InitLock.Certificate
