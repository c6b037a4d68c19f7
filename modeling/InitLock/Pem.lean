import InitLock.Text.Base64
import InitLock.Text.Character

/-!
# PEM texts

A section of a PEM text stands between two lines that name it; headers, an
empty line and its bytes in base64 stand in it. What is before and between
sections is passed over. Bundles of certificates are read here: a text that
ends inside a section has none more, and other sections count for nothing.
-/

namespace InitLock.Pem

open Text

inductive Flaw where
  | notUtf8 (flaw : Utf8Flaw)
  | noBeginning
  | noEnd
  | names (beginning ending : String)
  | data (flaw : Base64Flaw)
  | header (line : String)
  deriving DecidableEq, Repr

namespace Flaw

def message : Flaw → String
  | notUtf8 flaw => "invalid utf-8 value: " ++ flaw.message
  | noBeginning => "missing BEGIN tag"
  | noEnd => "missing END tag"
  | names beginning ending =>
    "mismatching BEGIN (\"" ++ beginning ++ "\") and END (\"" ++ ending ++ "\") tags"
  | data flaw => "invalid data: " ++ flaw.message
  | header line => "invalid header: " ++ line

end Flaw

def ascii (s : String) : List UInt8 := utf8 s.toList

/-! ## Sections -/

/-- Looks for a mark, of which `left` is yet to come; `seen` has the bytes before, the last first.
A byte that breaks the mark off does not begin it again. -/
def findFrom (mark : List UInt8) :
    List UInt8 → List UInt8 → List UInt8 → Option (List UInt8 × List UInt8)
  | seen, [], rest => some ((seen.drop mark.length).reverse, rest)
  | _, _ :: _, [] => none
  | seen, m :: left, b :: rest => findFrom mark (b :: seen) (if b = m then left else mark) rest

/-- The bytes before a mark and those after it. -/
def find (mark : String) (bytes : List UInt8) : Option (List UInt8 × List UInt8) :=
  findFrom (ascii mark) [] (ascii mark) bytes

def skipBlank (bytes : List UInt8) : List UInt8 :=
  bytes.dropWhile fun b => b = 32 || b = 9 || b = 10 || b = 13

/-- A section as it is written. -/
structure Section where
  beginning : List UInt8
  headers : List UInt8
  data : List UInt8
  ending : List UInt8

def next? (bytes : List UInt8) : Option (Section × List UInt8) := do
  let (_, rest) ← find "-----BEGIN " bytes
  let (beginning, rest) ← find "-----" rest
  let (body, rest) ← find "-----END " (skipBlank rest)
  let (ending, rest) ← find "-----" rest
  let (headers, data) := ((find "\n\n" body).or (find "\r\n\r\n" body)).getD ([], body)
  return (⟨beginning, headers, data, ending⟩, skipBlank rest)

def sectionsFrom : Nat → List UInt8 → List Section
  | 0, _ => []
  | fuel + 1, bytes =>
    match next? bytes with
    | none => []
    | some (s, rest) => s :: sectionsFrom fuel rest

def sections (bytes : List UInt8) : List Section := sectionsFrom bytes.length bytes

/-! ## Their contents -/

def textOf (bytes : List UInt8) : Except Flaw (List Char) :=
  (decodeUtf8 bytes).mapError .notUtf8

def lines (cs : List Char) : List (List Char) :=
  let parts := ((String.ofList cs).splitOn "\n").map String.toList
  let ended := parts.dropLast.map fun line =>
    if line.getLast? = some '\r' then line.dropLast else line
  ended ++ (parts.getLast?.filter (· ≠ [])).toList

def trimEnd (line : List Char) : List Char := (line.reverse.dropWhile isSpace).reverse

/-- The name and the bytes of a section. Both lines name it alike, and headers have a colon. -/
def Section.content (s : Section) : Except Flaw (String × List UInt8) := do
  let beginning ← textOf s.beginning
  if beginning.isEmpty then throw .noBeginning
  let ending ← textOf s.ending
  if ending.isEmpty then throw .noEnd
  if beginning ≠ ending then throw (.names (String.ofList beginning) (String.ofList ending))
  let data := (lines (← textOf s.data)).flatMap trimEnd
  let bytes ← (Base64.decode (String.ofList data)).mapError .data
  if let some line := (lines (← textOf s.headers)).find? fun line => !line.contains ':' then
    throw (.header (String.ofList line))
  return (String.ofList beginning, bytes)

def certificates (bytes : List UInt8) : Except Flaw (List (List UInt8)) := do
  let contents ← (sections bytes).mapM Section.content
  return contents.filterMap fun (name, bytes) => if name = "CERTIFICATE" then some bytes else none

end InitLock.Pem
