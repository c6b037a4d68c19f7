import InitLock.Text.Character

/-!
# Names of servers

What a server's certificate may be for: a name of labels between dots, or an
address of the fourth or the sixth version of the protocol.
-/

namespace InitLock.Api.ServerName

/-! ## Names -/

def maxLabel : Nat := 63

def maxName : Nat := 253

def isNumeric (label : List Char) : Bool := label.all Char.isDigit

/-- A label: letters, digits, underscores and dashes, of which none is at either end. -/
def isLabel (label : List Char) : Bool :=
  !label.isEmpty && decide (label.length ≤ maxLabel) &&
    (label.all fun c => c.isAlphanum || c = '_' || c = '-') &&
    label.head? ≠ some '-' && label.getLast? ≠ some '-'

def split (cs : List Char) (mark : Char) : List (List Char) :=
  ((String.ofList cs).splitOn (String.singleton mark)).map String.toList

/-- A name: labels, of which the last is not numeric. A dot may stand at the end. -/
def isName (cs : List Char) : Bool :=
  let labels := split cs '.'
  let labels := if 1 < labels.length ∧ labels.getLast? = some [] then labels.dropLast else labels
  decide ((String.ofList cs).utf8ByteSize ≤ maxName) && labels.all isLabel &&
    !isNumeric (labels.getLastD [])

/-! ## Addresses -/

/-- A byte in decimal digits, of which the first is zero only if it is alone. -/
def isByte (ds : List Char) : Bool :=
  match Text.number? 10 ds with
  | none => false
  | some n => decide (ds.length ≤ 3 ∧ n < 256) && (ds.length = 1 || ds.head? ≠ some '0')

/-- An address of the fourth version: four bytes between dots. -/
def isFour (cs : List Char) : Bool :=
  let bytes := split cs '.'
  bytes.length = 4 && bytes.all isByte

/-- A group of an address of the sixth version: up to four hexadecimal digits. -/
def isGroup (ds : List Char) : Bool :=
  decide (ds.length ≤ 4) && (Text.number? 16 ds).isSome

/-- How many groups the text before or after a gap counts for: an address of the fourth version may
stand for the last two if `four` says so. -/
def groups? (four : Bool) (cs : List Char) : Option Nat :=
  if cs.isEmpty then some 0
  else
    let parts := split cs ':'
    let last := parts.getLastD []
    if four ∧ isFour last then
      if parts.dropLast.all isGroup then some (parts.length + 1) else none
    else if parts.all isGroup then some parts.length
    else none

/-- The text before the first two colons next to each other, and the text after them. -/
def splitGap : List Char → Option (List Char × List Char)
  | ':' :: ':' :: rest => some ([], rest)
  | c :: rest => (splitGap rest).map fun (before, after) => (c :: before, after)
  | [] => none

def groupCount : Nat := 8

/-- An address of the sixth version: eight groups, or fewer with one gap. -/
def isSix (cs : List Char) : Bool :=
  match splitGap cs with
  | none => groups? true cs = some groupCount
  | some (before, after) =>
    match groups? false before, groups? true after with
    | some m, some n => decide (m + n < groupCount)
    | _, _ => false

/-- Whether a certificate may be for a text. -/
def isValid (s : String) : Bool :=
  let cs := s.toList
  isName cs || isFour cs || isSix cs

end InitLock.Api.ServerName
