import InitLock.Json.Value
import InitLock.Text.Character
import InitLock.Text.Utf8

/-!
# Faults in JSON texts

What can be wrong with a text that is read as JSON, and where. A place is kept
as the text still unread; the position in the message counts lines from one and
bytes since the last line feed. A fault about a value as a whole (a missing
member, a wrong count) has no place of its own: it is open until the reader of
the container around it settles it.
-/

namespace InitLock.Json

/-- What stood where another kind of value was wanted. -/
inductive Found where
  | null
  | bool (b : Bool)
  | number (n : Number)
  | text (s : String)
  | list
  | object
  deriving DecidableEq, Repr

namespace Found

def describe : Found → String
  | null => "null"
  | bool b => "boolean `" ++ toString b ++ "`"
  | number (.whole n) => "integer `" ++ String.ofList (Number.whole n).write ++ "`"
  | number (.real x) => "floating point `" ++ String.ofList (Number.real x).write ++ "`"
  | text s => "string " ++ Text.quoted s
  | list => "sequence"
  | object => "map"

end Found

inductive Problem where
  | endInValue
  | endInString
  | endInList
  | endInObject
  | expectedIdent
  | expectedValue
  | expectedColon
  | expectedListEnd
  | expectedObjectEnd
  | keyNotString
  | trailingComma
  | trailingCharacters
  | controlCharacter
  | invalidEscape
  | loneSurrogate
  | endOfHexEscape
  | invalidNumber
  | numberOutOfRange
  | tooDeep
  | wrongType (found : Found) (expected : String)
  | wrongValue (found : Found) (expected : String)
  | wrongLength (length : Nat) (expected : String)
  | missingMember (name : String)
  | duplicateMember (name : String)
  | other (message : String)
  deriving DecidableEq, Repr

namespace Problem

def message : Problem → String
  | endInValue => "EOF while parsing a value"
  | endInString => "EOF while parsing a string"
  | endInList => "EOF while parsing a list"
  | endInObject => "EOF while parsing an object"
  | expectedIdent => "expected ident"
  | expectedValue => "expected value"
  | expectedColon => "expected `:`"
  | expectedListEnd => "expected `,` or `]`"
  | expectedObjectEnd => "expected `,` or `\x7d`"
  | keyNotString => "key must be a string"
  | trailingComma => "trailing comma"
  | trailingCharacters => "trailing characters"
  | controlCharacter => "control character (\\u0000-\\u001F) found while parsing a string"
  | invalidEscape => "invalid escape"
  | loneSurrogate => "lone leading surrogate in hex escape"
  | endOfHexEscape => "unexpected end of hex escape"
  | invalidNumber => "invalid number"
  | numberOutOfRange => "number out of range"
  | tooDeep => "recursion limit exceeded"
  | wrongType found expected => "invalid type: " ++ found.describe ++ ", expected " ++ expected
  | wrongValue found expected => "invalid value: " ++ found.describe ++ ", expected " ++ expected
  | wrongLength length expected =>
    "invalid length " ++ toString length ++ ", expected " ++ expected
  | missingMember name => "missing field `" ++ name ++ "`"
  | duplicateMember name => "duplicate field `" ++ name ++ "`"
  | other message => message

end Problem

/-- A problem and its place: `ahead` bytes into `rest`, the text then unread. -/
structure Fault where
  problem : Problem
  rest : List Char
  ahead : Nat
  settled : Bool
  deriving DecidableEq, Repr

namespace Fault

/-- A fault right before the unread text. -/
def here (problem : Problem) (rest : List Char) : Fault := ⟨problem, rest, 0, true⟩

/-- A fault at the next byte, which counts as reached; at the end of the text there is none. -/
def next (problem : Problem) (rest : List Char) : Fault :=
  ⟨problem, rest, if rest.isEmpty then 0 else 1, true⟩

def unplaced (problem : Problem) (rest : List Char) : Fault := ⟨problem, rest, 0, false⟩

/-- Gives an open fault its place: what `close` leaves unread of the text it stands before. -/
def settle (close : List Char → List Char) (fault : Fault) : Fault :=
  if fault.settled then fault else here fault.problem (close fault.rest)

def positionAfter (bytes : List UInt8) : Nat × Nat :=
  bytes.foldl
    (fun (p : Nat × Nat) (b : UInt8) => if b = 10 then (p.1 + 1, 0) else (p.1, p.2 + 1)) (1, 0)

def message (text : List Char) (fault : Fault) : String :=
  let bytes := Text.utf8 text
  let reached := bytes.length - Text.byteLength fault.rest + fault.ahead
  let (line, column) := positionAfter (bytes.take reached)
  fault.problem.message ++ " at line " ++ toString line ++ " column " ++ toString column

end Fault

end InitLock.Json
