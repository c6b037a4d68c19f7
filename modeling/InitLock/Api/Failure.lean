import InitLock.Text.Character
import InitLock.Text.Utf8

/-!
# Failed requests

How a request to the API server can fail: it is never sent, the connection
fails, the server refuses it with a status, or its answer cannot be read.
-/

namespace InitLock.Api

/-- What the server says when it refuses a request. -/
structure Refusal where
  status : String
  message : String
  reason : String
  code : Nat
  deriving DecidableEq, Repr

/-- Why a text is no address of a server or a request. -/
inductive UriFlaw where
  | character
  | length
  | empty
  | format
  | authority
  | scheme
  deriving DecidableEq, Repr

/-- Why a request is not sent. -/
inductive RequestFlaw where
  | uri (flaw : UriFlaw)
  | emptyName
  | longFieldManager
  deriving DecidableEq, Repr

inductive Failure where
  | refused (refusal : Refusal)
  | transport (text : String)
  | notUtf8 (flaw : Text.Utf8Flaw)
  | unreadable (message : String)
  | unsent (flaw : RequestFlaw)
  | badAddress (flaw : UriFlaw)
  | emptyGroup (group : String)
  deriving DecidableEq, Repr

namespace UriFlaw

def message : UriFlaw → String
  | character => "invalid uri character"
  | length => "uri too long"
  | empty => "empty string"
  | format => "invalid format"
  | authority => "invalid authority"
  | scheme => "scheme too long"

end UriFlaw

namespace RequestFlaw

def message : RequestFlaw → String
  | uri flaw => "failed to build request: " ++ flaw.message
  | emptyName => "failed to validate request: A non-empty name is required"
  | longFieldManager => "failed to validate request: Failed to validate PostParams::field_manager!"

end RequestFlaw

namespace Refusal

def describe (r : Refusal) : String :=
  "ApiError: " ++ r.message ++ ": " ++ r.reason ++ " (ErrorResponse \x7b status: " ++
    Text.quoted r.status ++ ", message: " ++ Text.quoted r.message ++ ", reason: " ++
    Text.quoted r.reason ++ ", code: " ++ toString r.code ++ " \x7d)"

end Refusal

namespace Failure

def message : Failure → String
  | refused r => r.describe
  | transport text => "ServiceError: " ++ text
  | notUtf8 flaw => "UTF-8 Error: " ++ flaw.message
  | unreadable message => "Error deserializing response: " ++ message
  | unsent flaw => "Failed to build request: " ++ flaw.message
  | badAddress flaw => "HttpError: " ++ flaw.message
  | emptyGroup group => "Error from discovery: Empty Api Group: " ++ group

def isNotFound : Failure → Bool
  | refused r => r.code = 404
  | _ => false

/-- Whether the server says that an object to be created is there already. A conflict of another
kind has the same code and another reason. -/
def isAlreadyExists : Failure → Bool
  | refused r => r.code = 409 && r.reason = "AlreadyExists"
  | _ => false

end Failure

end InitLock.Api
