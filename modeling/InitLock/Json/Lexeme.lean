import InitLock.Json.Fault
import InitLock.Text.Character

/-!
# Lexemes of JSON

Blanks, words, string literals and numbers. A reader takes the unread text and
returns what it read and what is left, or a fault.
-/

namespace InitLock.Json

/-- What a reader returns: a value and the text after it, or a fault. -/
abbrev Parsed (α : Type) := Except Fault (α × List Char)

/-- The characters that may stand between lexemes. -/
def isBlank (c : Char) : Bool := c = ' ' || c = '\n' || c = '\t' || c = '\r'

def skipBlanks (cs : List Char) : List Char := cs.dropWhile isBlank

def digit? (c : Char) : Option Nat := Text.digit? 10 c

def startsWithDigit : List Char → Bool
  | [] => false
  | c :: _ => (digit? c).isSome

/-- The rest of a word whose first letter has been read. -/
def word : List Char → List Char → Except Fault (List Char)
  | [], cs => .ok cs
  | _ :: _, [] => .error (.here .endInValue [])
  | w :: ws, c :: cs =>
    if c = w then word ws cs else .error (.next .expectedIdent (c :: cs))

/-! ## String literals -/

/-- The four hexadecimal digits of an escape: a 16-bit unit. -/
def hexUnit (cs : List Char) : Parsed Nat :=
  if Text.byteLength (cs.take 4) < 4 then .error (.here .endInString [])
  else
    match cs with
    | a :: b :: c :: d :: rest =>
      match Text.number? 16 [a, b, c, d] with
      | some n => .ok (n, rest)
      | none => .error ⟨.invalidEscape, cs, 4, true⟩
    | _ => .error ⟨.invalidEscape, cs, 4, true⟩

/-- The first unit of a surrogate pair. -/
def isHighSurrogate (n : Nat) : Bool := decide (0xd800 ≤ n ∧ n ≤ 0xdbff)

/-- The second unit of a surrogate pair. -/
def isLowSurrogate (n : Nat) : Bool := decide (0xdc00 ≤ n ∧ n ≤ 0xdfff)

def pairChar (high low : Nat) : Char :=
  Char.ofNat ((high - 0xd800) * 0x400 + (low - 0xdc00) + 0x10000)

/-- What follows `\u`: one unit, or a surrogate pair in two escapes. -/
def unicodeEscape (cs : List Char) : Parsed Char :=
  match hexUnit cs with
  | .error f => .error f
  | .ok (n, rest) =>
    if isLowSurrogate n then .error (.here .loneSurrogate rest)
    else if isHighSurrogate n then
      match rest with
      | [] => .error (.here .endInString [])
      | '\\' :: [] => .error (.here .endInString [])
      | '\\' :: 'u' :: rest =>
        match hexUnit rest with
        | .error f => .error f
        | .ok (m, rest) =>
          if isLowSurrogate m then .ok (pairChar n m, rest)
          else .error (.here .loneSurrogate rest)
      | '\\' :: rest => .error (.next .endOfHexEscape rest)
      | rest => .error (.next .endOfHexEscape rest)
    else .ok (Char.ofNat n, rest)

def shortEscape? : Char → Option Char
  | '"' => some '"'
  | '\\' => some '\\'
  | '/' => some '/'
  | 'b' => some '\x08'
  | 'f' => some '\x0c'
  | 'n' => some '\n'
  | 'r' => some '\r'
  | 't' => some '\t'
  | _ => none

/-- What follows a backslash. -/
def escape : List Char → Parsed Char
  | [] => .error (.here .endInString [])
  | c :: rest =>
    match shortEscape? c with
    | some x => .ok (x, rest)
    | none => if c = 'u' then unicodeEscape rest else .error (.next .invalidEscape (c :: rest))

/-- The next character of a string literal, none at its closing quote. -/
def literalChar : List Char → Parsed (Option Char)
  | [] => .error (.here .endInString [])
  | c :: rest =>
    if c = '"' then .ok (none, rest)
    else if c = '\\' then (escape rest).map fun (x, rest) => (some x, rest)
    else if c.toNat < 0x20 then .error (.here .controlCharacter rest)
    else .ok (some c, rest)

def literalChars : Nat → List Char → Parsed (List Char)
  | 0, cs => .error (.here .endInString cs)
  | fuel + 1, cs =>
    match literalChar cs with
    | .error f => .error f
    | .ok (none, rest) => .ok ([], rest)
    | .ok (some c, rest) => (literalChars fuel rest).map fun (s, rest) => (c :: s, rest)

/-- A string literal after its opening quote. -/
def literal (cs : List Char) : Parsed String :=
  (literalChars (cs.length + 1) cs).map fun (s, rest) => (String.ofList s, rest)

/-! ## Numbers -/

def skipDigits (cs : List Char) : List Char := cs.dropWhile fun c => (digit? c).isSome

/-- Digits of a significand below `2^64`. The first digit that would lead beyond ends it; the
count is of the digits read. -/
def significand (n count : Nat) : List Char → Nat × Nat × List Char
  | [] => (n, count, [])
  | c :: cs =>
    match digit? c with
    | some d =>
      if n * 10 + d < Decimal.pow2 64 then significand (n * 10 + d) (count + 1) cs
      else (n, count, c :: cs)
    | none => (n, count, c :: cs)

/-- The number `±digits · 10^exponent` as a binary64 value. -/
def realOf (negative : Bool) (digits : Nat) (exponent : Int) (rest : List Char) : Parsed Number :=
  match Decimal.Magnitude.scaled digits exponent with
  | some m => .ok (.real ⟨negative, m⟩, rest)
  | none => .error (.here .numberOutOfRange rest)

/-- Digits of an exponent below `2^31`, or the text after the first digit that leads beyond. -/
def exponentDigits (n : Nat) : List Char → Except (List Char) (Nat × List Char)
  | [] => .ok (n, [])
  | c :: cs =>
    match digit? c with
    | some d => if n * 10 + d < Decimal.pow2 31 then exponentDigits (n * 10 + d) cs else .error cs
    | none => .ok (n, c :: cs)

def exponentSign : List Char → Bool × List Char
  | '+' :: rest => (false, rest)
  | '-' :: rest => (true, rest)
  | rest => (false, rest)

/-- What follows `e` in a number whose digits have been read. -/
def exponentPart (negative : Bool) (digits : Nat) (exponent : Int) (cs : List Char) :
    Parsed Number :=
  let (down, cs) := exponentSign cs
  match cs with
  | [] => .error (.here .endInValue [])
  | c :: _ =>
    if (digit? c).isNone then .error (.next .invalidNumber cs)
    else
      match exponentDigits 0 cs with
      | .ok (n, rest) =>
        realOf negative digits (if down then exponent - n else exponent + n) rest
      | .error rest =>
        if digits ≠ 0 ∧ !down then .error (.here .numberOutOfRange rest)
        else .ok (.real ⟨negative, .zero⟩, skipDigits rest)

/-- An exponent if there is one, after the digits have been read. -/
def afterDigits (negative : Bool) (digits : Nat) (exponent : Int) (cs : List Char) :
    Parsed Number :=
  match cs with
  | 'e' :: rest => exponentPart negative digits exponent rest
  | 'E' :: rest => exponentPart negative digits exponent rest
  | rest => realOf negative digits exponent rest

/-- What follows the point; digits that no longer fit the significand count for nothing. -/
def fractionPart (negative : Bool) (digits : Nat) (exponent : Int) (cs : List Char) :
    Parsed Number :=
  if startsWithDigit cs then
    let (n, count, rest) := significand digits 0 cs
    afterDigits negative n (exponent - count) (skipDigits rest)
  else .error (.next (if cs.isEmpty then .endInValue else .invalidNumber) cs)

/-- A whole number below `2^64` in size; below `-2^63` and at minus zero it is binary64. -/
def wholeNumber (negative : Bool) (n : Nat) (rest : List Char) : Parsed Number :=
  if !negative then .ok (.whole n, rest)
  else if 0 < n ∧ n ≤ Decimal.pow2 63 then .ok (.whole (-n), rest)
  else realOf true n 0 rest

def numberAfterSign (negative : Bool) (cs : List Char) : Parsed Number :=
  match cs with
  | [] => .error (.here .endInValue [])
  | c :: rest =>
    if (digit? c).isNone then .error (.next .invalidNumber cs)
    else if c = '0' ∧ startsWithDigit rest then .error (.next .invalidNumber rest)
    else
      let (n, _, more) := significand 0 0 cs
      let rest := skipDigits more
      let dropped := more.length - rest.length
      match rest with
      | '.' :: rest => fractionPart negative n dropped rest
      | rest =>
        if dropped = 0 ∧ rest.head? ≠ some 'e' ∧ rest.head? ≠ some 'E' then
          wholeNumber negative n rest
        else afterDigits negative n dropped rest

def number (cs : List Char) : Parsed Number :=
  match cs with
  | '-' :: rest => numberAfterSign true rest
  | rest => numberAfterSign false rest

end InitLock.Json
