import InitLock.Api.Request
import InitLock.Json.Reader

/-!
# Answers

What the server answers to a request: a status code and a body. A code from 400
to 599 refuses the request; the body should then say why in its own words and
with a code of its own, which counts. If it does not, the refusal is made up
from the status line and the body. Any other code comes with the wanted value.
-/

namespace InitLock.Api

open Json Json.Reader

/-- What comes back on a request. -/
inductive Answer where
  | response (status : Nat) (body : List UInt8)
  | broken (text : String)
  deriving DecidableEq, Repr

/-! ## Refusals -/

def reasonPhrase : Nat → Option String
  | 400 => some "Bad Request"
  | 401 => some "Unauthorized"
  | 402 => some "Payment Required"
  | 403 => some "Forbidden"
  | 404 => some "Not Found"
  | 405 => some "Method Not Allowed"
  | 406 => some "Not Acceptable"
  | 407 => some "Proxy Authentication Required"
  | 408 => some "Request Timeout"
  | 409 => some "Conflict"
  | 410 => some "Gone"
  | 411 => some "Length Required"
  | 412 => some "Precondition Failed"
  | 413 => some "Payload Too Large"
  | 414 => some "URI Too Long"
  | 415 => some "Unsupported Media Type"
  | 416 => some "Range Not Satisfiable"
  | 417 => some "Expectation Failed"
  | 418 => some "I'm a teapot"
  | 421 => some "Misdirected Request"
  | 422 => some "Unprocessable Entity"
  | 423 => some "Locked"
  | 424 => some "Failed Dependency"
  | 425 => some "Too Early"
  | 426 => some "Upgrade Required"
  | 428 => some "Precondition Required"
  | 429 => some "Too Many Requests"
  | 431 => some "Request Header Fields Too Large"
  | 451 => some "Unavailable For Legal Reasons"
  | 500 => some "Internal Server Error"
  | 501 => some "Not Implemented"
  | 502 => some "Bad Gateway"
  | 503 => some "Service Unavailable"
  | 504 => some "Gateway Timeout"
  | 505 => some "HTTP Version Not Supported"
  | 506 => some "Variant Also Negotiates"
  | 507 => some "Insufficient Storage"
  | 508 => some "Loop Detected"
  | 510 => some "Not Extended"
  | 511 => some "Network Authentication Required"
  | _ => none

def statusLine (code : Nat) : String :=
  toString code ++ " " ++ (reasonPhrase code).getD "<unknown status code>"

/-- A code in JSON, of 16 bits. -/
def codeNumber : Reader Nat := (integer "u16" 0 65535).map Int.toNat

/-- The parts of a refusal found so far. -/
structure PartialRefusal where
  status : Option String
  message : Option String
  reason : Option String
  code : Option Nat

namespace PartialRefusal

def empty : PartialRefusal := ⟨none, none, none, none⟩

def once {α σ : Type} (name : String) (old : Option α) (r : Reader σ) : Member σ :=
  if old.isSome then .refuse (.duplicateMember name) else .take r

def member (name : String) (p : PartialRefusal) : Member PartialRefusal :=
  match name with
  | "status" => once name p.status (text.map fun s => { p with status := some s })
  | "message" => once name p.message (text.map fun s => { p with message := some s })
  | "reason" => once name p.reason (text.map fun s => { p with reason := some s })
  | "code" => once name p.code (codeNumber.map fun n => { p with code := some n })
  | _ => .skip

/-- The refusal, of which status and code are needed. -/
def finish (p : PartialRefusal) : Except Problem Refusal :=
  match p.status, p.code with
  | none, _ => .error (.missingMember "status")
  | some _, none => .error (.missingMember "code")
  | some status, some code => .ok ⟨status, p.message.getD "", p.reason.getD "", code⟩

def expected : String := "struct ErrorResponse"

/-- The next part in a list of parts; `n` have been read. -/
def part {α : Type} (r : Reader α) (depth n : Nat) (cs : List Char) : Parsed α :=
  match nextItem (n = 0) cs with
  | .error f => .error f
  | .ok (false, rest) => .error (.unplaced (.wrongLength n (expected ++ " with 4 elements")) rest)
  | .ok (true, rest) => r depth rest

/-- The four parts as a list in place of an object. -/
def listed (depth : Nat) (cs : List Char) : Parsed Refusal :=
  match part text depth 0 cs with
  | .error f => .error f
  | .ok (status, rest) =>
    match part text depth 1 rest with
    | .error f => .error f
    | .ok (message, rest) =>
      match part text depth 2 rest with
      | .error f => .error f
      | .ok (reason, rest) =>
        (part codeNumber depth 3 rest).map fun (code, rest) =>
          (⟨status, message, reason, code⟩, rest)

end PartialRefusal

def Refusal.reader : Reader Refusal :=
  objectOr PartialRefusal.expected (some PartialRefusal.listed) PartialRefusal.member
    PartialRefusal.finish .empty

def Refusal.ofResponse (status : Nat) (body : List Char) : Refusal :=
  match Refusal.reader.document body with
  | .ok r => r
  | .error _ =>
    ⟨statusLine status, Text.quoted (String.ofList body), "Failed to parse error data", status⟩

/-- The text of the body, unless the request failed. -/
def Answer.text : Answer → Except Failure (List Char)
  | .broken text => .error (.transport text)
  | .response status body =>
    match Text.decodeUtf8 body with
    | .error flaw => .error (.notUtf8 flaw)
    | .ok cs =>
      if 400 ≤ status ∧ status < 600 then .error (.refused (.ofResponse status cs)) else .ok cs

def readBody {α : Type} (r : Reader α) (cs : List Char) : Except Failure α :=
  (r.document cs).mapError fun f => .unreadable (f.message cs)

/-! ## Statuses of success -/

def summaryWord : Reader Unit :=
  textOf "variant identifier" fun s =>
    if s = "Success" ∨ s = "Failure" then .ok ()
    else .error ("unknown variant `" ++ s ++ "`, expected `Success` or `Failure`")

/-- How a request went after an opening brace: one word as a key without a value. -/
def summaryBody (depth : Nat) (cs : List Char) : Except Fault (Unit × List Char) := do
  let (_, rest) ← summaryWord depth cs
  match skipBlanks (← colon rest) with
  | 'n' :: rest =>
    match skipBlanks (← word ['u', 'l', 'l'] rest) with
    | '}' :: rest => .ok ((), rest)
    | [] => .error (.here .endInObject [])
    | rest => .error (.here .expectedValue rest)
  | rest => .error (mismatch "unit" rest)

/-- How a request went: a word, or an object of which it is the only key. -/
def summary : Reader Unit := fun depth cs =>
  match skipBlanks cs with
  | [] => .error (.next .endInValue [])
  | '"' :: rest => summaryWord depth ('"' :: rest)
  | '{' :: rest =>
    if depth ≤ 1 then .error (.next .tooDeep ('{' :: rest)) else summaryBody (depth - 1) rest
  | cs => .error (.next .expectedValue cs)

/-- A member of an object whose members are read for their types alone, each at most once. -/
def checked (readers : List (String × Reader Unit)) (name : String) (seen : List String) :
    Member (List String) :=
  match readers.lookup name with
  | none => .skip
  | some r =>
    if seen.contains name then .refuse (.duplicateMember name)
    else .take (r.map fun _ => name :: seen)

/-- The members in their order as a list in place of an object; the last ones may be left out. -/
def checkedList (depth : Nat) :
    List (Reader Unit) → Bool → List Char → Except Fault (Unit × List Char)
  | [], _, cs => .ok ((), cs)
  | r :: rs, first, cs => do
    let (more, rest) ← nextItem first cs
    if more then
      let (_, rest) ← r depth rest
      checkedList depth rs false rest
    else return ((), rest)

def checkedObject (expected : String) (readers : List (String × Reader Unit)) : Reader Unit :=
  objectOr expected (some fun depth => checkedList depth (readers.map (·.2)) true)
    (checked readers) (fun _ => .ok ()) []

def anyText : Reader Unit := text.map fun _ => ()

def statusCause : Reader Unit :=
  checkedObject "struct StatusCause"
    [("reason", anyText), ("message", anyText), ("field", anyText)]

def statusDetails : Reader Unit :=
  checkedObject "struct StatusDetails"
    [("name", anyText), ("group", anyText), ("kind", anyText), ("uid", anyText),
      ("causes", (list statusCause).map fun _ => ()),
      ("retryAfterSeconds", (integer "u32" 0 0xffffffff).map fun _ => ())]

def success : Reader Unit :=
  checkedObject "struct Status"
    [("status", (nullable summary).map fun _ => ()), ("code", codeNumber.map fun _ => ()),
      ("message", anyText), ("reason", anyText),
      ("details", (nullable statusDetails).map fun _ => ())]

def isStatus : Value → Bool
  | .object ms =>
    match Members.get? "kind" ms with
    | some (.text kind) => kind = "Status"
    | _ => false
  | _ => false

/-- Reads the body that answers a delete: a status, or else the deleted object. -/
def readDeleted {α : Type} (r : Reader α) (cs : List Char) : Except Failure Unit := do
  let v ← readBody any cs
  if isStatus v then readBody success cs
  else
    let _ ← readBody r cs
    return ()

end InitLock.Api
