import InitLock.Text.Character
import InitLock.Text.Utf8

/-!
# Timestamps

A timestamp is a date and a time with an offset, as in `2024-05-01T12:30:00Z`.
White space before a number or a mark, a signed year, a fraction of a second, a
space in place of the `T` and the letters `UTC` for the offset are allowed. The
numbers are checked one by one while they are read, the date as a whole and the
offset only at the end.
-/

namespace InitLock.Text

/-- A date and a time, and how far the time is ahead of the universal one, in seconds. -/
structure Timestamp where
  year : Int
  month : Nat
  day : Nat
  hour : Nat
  minute : Nat
  second : Nat
  offset : Int
  deriving DecidableEq, Repr

namespace Timestamp

inductive Flaw where
  | tooShort
  | tooLong
  | invalid
  | outOfRange
  | impossible
  deriving DecidableEq, Repr

namespace Flaw

def message : Flaw → String
  | tooShort => "premature end of input"
  | tooLong => "trailing input"
  | invalid => "input contains invalid characters"
  | outOfRange => "input is out of range"
  | impossible => "no possible date and time matching input"

end Flaw

/-! ## The calendar -/

def isLeap (year : Int) : Bool := year % 4 = 0 && (year % 100 ≠ 0 || year % 400 = 0)

def daysIn (year : Int) (month : Nat) : Nat :=
  if month = 2 then (if isLeap year then 29 else 28)
  else if month = 4 ∨ month = 6 ∨ month = 9 ∨ month = 11 then 30
  else 31

/-- The first and the last year. -/
def minYear : Int := -262143
def maxYear : Int := 262142

/-- The number of days from the first day of the year one to a date. -/
def days (year : Int) (month day : Nat) : Int :=
  let y := year - 1
  let before := (List.range (month - 1)).foldl (fun n m => n + daysIn year (m + 1)) 0
  365 * y + y.fdiv 4 - y.fdiv 100 + y.fdiv 400 + before + day - 1

def dayLength : Int := 86400

/-- The number of seconds from the beginning of the year one, in universal time. -/
def seconds (t : Timestamp) : Int :=
  days t.year t.month t.day * dayLength + (t.hour * 60 + t.minute) * 60 + t.second - t.offset

/-- Whether the universal time lies in a year that there is. -/
def isPossible (t : Timestamp) : Bool :=
  decide (days minYear 1 1 * dayLength ≤ t.seconds) &&
    decide (t.seconds < (days maxYear 12 31 + 1) * dayLength)

/-! ## Reading -/

/-- The digits in front of a text, at most `width` of them, and what follows. -/
def numeral (width : Option Nat) (cs : List Char) : Except Flaw (Nat × List Char) :=
  let ds := ((width.map cs.take).getD cs).takeWhile Char.isDigit
  if cs.isEmpty then .error .tooShort
  else
    match number? 10 ds with
    | none => .error .invalid
    | some n => .ok (n, cs.drop ds.length)

/-- A number of two digits at most that lies between `lo` and `hi`. -/
def part (lo hi : Nat) (cs : List Char) : Except Flaw (Nat × List Char) := do
  let (n, rest) ← numeral (some 2) (trimStart cs)
  if n < lo ∨ hi < n then throw .outOfRange
  return (n, rest)

/-- A year: four digits at most, any number of them after a sign. -/
def yearPart (cs : List Char) : Except Flaw (Int × List Char) := do
  let signed (sign : Int) (cs : List Char) : Except Flaw (Int × List Char) := do
    let (n, rest) ← numeral none cs
    let year := sign * n
    if year < -0x80000000 ∨ 0x7fffffff < year then throw .outOfRange
    return (year, rest)
  match trimStart cs with
  | '-' :: cs => signed (-1) cs
  | '+' :: cs => signed 1 cs
  | cs => (numeral (some 4) cs).map fun (n, rest) => ((n : Int), rest)

def mark (c : Char) (cs : List Char) : Except Flaw (List Char) :=
  match trimStart cs with
  | [] => .error .tooShort
  | d :: rest => if d = c then .ok rest else .error .invalid

/-- The letter or space between date and time. -/
def separator : List Char → Except Flaw (List Char)
  | [] => .error .tooShort
  | c :: rest => if c = 'T' ∨ c = 't' ∨ c = ' ' then .ok rest else .error .invalid

def fraction : List Char → Except Flaw (List Char)
  | '.' :: cs => (numeral none cs).map (·.2)
  | cs => .ok cs

def pair (cs : List Char) : Except Flaw (Nat × Nat × List Char) :=
  if byteLength cs < 2 then .error .tooShort
  else
    match cs with
    | a :: b :: rest =>
      match digit? 10 a, digit? 10 b with
      | some a, some b => .ok (a, b, rest)
      | _, _ => .error .invalid
    | _ => .error .invalid

/-- Hours and minutes of an offset after its sign, with or without colons or space between them. -/
def offsetAfterSign (cs : List Char) : Except Flaw (Nat × List Char) := do
  let (a, b, rest) ← pair cs
  let (m, n, rest) ← pair (rest.dropWhile fun c => c = ':' || isSpace c)
  if 5 < m then throw .outOfRange
  return ((a * 10 + b) * 3600 + (m * 10 + n) * 60, rest)

/-- An offset: `UTC`, `Z`, or a sign with hours and minutes. -/
def offsetPart (cs : List Char) : Except Flaw (Int × List Char) :=
  if (cs.take 3).map Char.toLower = ['u', 't', 'c'] then .ok (0, cs.drop 3)
  else
    match cs with
    | [] => .error .tooShort
    | c :: rest =>
      if c = 'Z' ∨ c = 'z' then .ok (0, rest)
      else if c = '+' then (offsetAfterSign rest).map fun (n, rest) => ((n : Int), rest)
      else if c = '-' ∨ c = '\u2212' then
        (offsetAfterSign rest).map fun (n, rest) => (-(n : Int), rest)
      else .error .invalid

def read (cs : List Char) : Except Flaw Timestamp := do
  let (year, cs) ← yearPart cs
  let (month, cs) ← part 1 12 (← mark '-' cs)
  let (day, cs) ← part 1 31 (← mark '-' cs)
  let (hour, cs) ← part 0 23 (← separator cs)
  let (minute, cs) ← part 0 59 (← mark ':' cs)
  let (second, cs) ← part 0 60 (← mark ':' cs)
  let (offset, cs) ← offsetPart (trimStart (← fraction cs))
  if !(trimStart cs).isEmpty then throw .tooLong
  if year < minYear ∨ maxYear < year ∨ daysIn year month < day then throw .outOfRange
  if dayLength ≤ offset.natAbs then throw .outOfRange
  let t : Timestamp := ⟨year, month, day, hour, minute, second, offset⟩
  if t.isPossible then return t else throw .impossible

def parse (s : String) : Except String Timestamp := (read s.toList).mapError Flaw.message

def check (s : String) : Except String Unit := (parse s).map fun _ => ()

end Timestamp

end InitLock.Text
