import InitLock.Api.Failure
import InitLock.Json.Printer
import InitLock.Text.Utf8

/-!
# Requests

A request to the API server. Its address is a path and perhaps a query, in the
characters that may stand there; a fragment is left off.
-/

namespace InitLock.Api

inductive Method where
  | get
  | post
  | delete
  deriving DecidableEq, Repr

namespace Method

def name : Method → String
  | get => "GET"
  | post => "POST"
  | delete => "DELETE"

end Method

/-- A request. A body is JSON. -/
structure Request where
  method : Method
  uri : String
  body : Option Json.Value

/-! ## Addresses -/

def isPathChar (c : Char) : Bool :=
  let n := c.toNat
  decide (n = 0x21 ∨ n = 0x22 ∨ (0x24 ≤ n ∧ n ≤ 0x3b) ∨ n = 0x3d ∨ (0x40 ≤ n ∧ n ≤ 0x5f) ∨
    (0x61 ≤ n ∧ n ≤ 0x7e) ∨ 0x80 ≤ n)

def isQueryChar (c : Char) : Bool :=
  let n := c.toNat
  decide (n = 0x21 ∨ (0x24 ≤ n ∧ n ≤ 0x3b) ∨ n = 0x3d ∨ (0x3f ≤ n ∧ n ≤ 0x7e) ∨ 0x80 ≤ n)

/-- How long an address may be, in bytes. -/
def maxUriLength : Nat := 65534

def queryPart : List Char → Except UriFlaw (List Char)
  | [] => .ok []
  | c :: cs =>
    if c = '#' then .ok []
    else if isQueryChar c then (queryPart cs).map (c :: ·)
    else .error .character

/-- The path of an address and what follows it, up to a fragment. -/
def pathPart : List Char → Except UriFlaw (List Char)
  | [] => .ok []
  | c :: cs =>
    if c = '#' then .ok []
    else if c = '?' then (queryPart cs).map (c :: ·)
    else if isPathChar c then (pathPart cs).map (c :: ·)
    else .error .character

def uriOf (target : String) : Except UriFlaw String :=
  if maxUriLength < target.utf8ByteSize then .error .length
  else (pathPart target.toList).map String.ofList

def Request.to (method : Method) (target : String) (body : Option Json.Value) :
    Except RequestFlaw Request :=
  (uriOf target).mapError .uri |>.map fun uri => ⟨method, uri, body⟩

end InitLock.Api
